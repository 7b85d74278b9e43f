import RealmBoot.Proofs.LocationReading
import RealmBoot.Proofs.PluginLines

/-!
# Places in the Cache

An entry of a plugin list is spliced into a path twice, as a directory below the cache and as the
start of a file name. Slashes are refused in the name, so that it is one segment of the path. Two
things are not refused that lead out of the directory of the module: a name that is a dot or two,
and slashes in the version.

## Main results

* `PluginEntry.segments_cachePath`: the segments of the path spliced together.
* `PluginEntry.location_cachePath`: where it leads, in normal form.
* `PluginEntry.listed_within_cache`: exactly which entries lead to one file in the directory of
  their module.
* `PluginEntry.not_listed_within_cache`: some lead elsewhere.
-/

namespace RealmBoot

open Location (step)

/-! ### Lexical steps -/

/-- A normal form has no dots in it. -/
theorem Location.proper_foldl_step {s : String} {todo names : List String}
    (hnames : s ∈ names → s ≠ "." ∧ s ≠ "..") (h : s ∈ todo.foldl step names) :
    s ≠ "." ∧ s ≠ ".." := by
  induction todo generalizing names with
  | nil => exact hnames h
  | cons t todo ih =>
      refine ih (fun hs => ?_) h
      rw [step] at hs
      split_ifs at hs with hdot hup
      · exact hnames hs
      · exact hnames ((List.dropLast_sublist names).subset hs)
      · rcases List.mem_append.mp hs with hs | hs
        · exact hnames hs
        · rw [List.mem_singleton.mp hs]
          exact ⟨hdot, hup⟩

namespace PluginEntry

variable {e : PluginEntry} {cacheDir path : Path} {workDir : Location} {text : String}
  {entries : List PluginEntry}

/-- The way from the directory of a module to its archive. -/
def way (e : PluginEntry) : List String :=
  (⟨e.name ++ "-" ++ e.version ++ ".hpi"⟩ : Path).segments

/-- The names of the directory of a module. -/
def shelf (e : PluginEntry) (cacheDir : Path) : List String :=
  cacheDir.segments ++ ["plugins", e.name]

/-- The way to an archive is that of one name if the version has no slash. -/
theorem way_of_noSlash (hname : '/' ∉ e.name.toList) (hversion : '/' ∉ e.version.toList) :
    e.way = [e.name ++ "-" ++ e.version ++ ".hpi"] := by
  refine Path.segments_name (fun h => ?_) (by simp [hname, hversion])
  have hchars := congrArg String.toList h
  simp at hchars

/-- The way to an archive ends with a name. -/
theorem way_eq_concat (hname : '/' ∉ e.name.toList) :
    ∃ file, Location.IsName file ∧ e.way = e.way.dropLast ++ [file] := by
  by_cases hversion : '/' ∈ e.version.toList
  · -- The last slash of the version is the one before the last name.
    obtain ⟨back, more, hback, hlast⟩ :=
      List.eq_append_cons_of_mem (List.mem_reverse.mpr hversion)
    have hsplit : e.name ++ "-" ++ e.version ++ ".hpi" =
        (e.name ++ "-" ++ String.ofList more.reverse) ++ "/" ++
          (String.ofList back.reverse ++ ".hpi") := by
      have hchars : e.version.toList = more.reverse ++ '/' :: back.reverse := by
        rw [← List.reverse_reverse e.version.toList, hback]
        simp
      apply String.ext
      simp [hchars]
    have hfile : Location.IsName (String.ofList back.reverse ++ ".hpi") :=
      Location.isName_append (by simpa using hlast) (by decide) (by decide)
    refine ⟨_, hfile, ?_⟩
    rw [way, hsplit, Path.segments_slash, Path.segments_name hfile.1 hfile.2.2.2,
      List.dropLast_concat]
  · have hfile : Location.IsName (e.name ++ "-" ++ e.version ++ ".hpi") :=
      Location.isName_append (by simp [hname, hversion]) (by decide) (by decide)
    refine ⟨_, hfile, ?_⟩
    rw [way_of_noSlash hname hversion]
    rfl

section Name

variable (hne : e.name ≠ "") (hname : '/' ∉ e.name.toList)
include hne hname

/-- The text spliced from a name and a version is no absolute path. -/
theorem isAbsolute_way : (⟨e.name ++ "-" ++ e.version ++ ".hpi"⟩ : Path).isAbsolute = false := by
  rw [String.append_assoc, String.append_assoc, Path.isAbsolute_append hne,
    Path.isAbsolute_eq_false_of_slash hname]

/-- The segments of the path spliced together, for a name that is one segment. -/
theorem segments_cachePath (cacheDir : Path) :
    (e.cachePath cacheDir).segments = e.shelf cacheDir ++ e.way := by
  rw [cachePath, Path.child, Path.segments_join (isAbsolute_way hne hname), Path.child,
    Path.segments_join (Path.isAbsolute_eq_false_of_slash hname), Path.segments_name hne hname,
    Path.segments_child (by decide), shelf, way]
  simp

/-- The path is absolute if the directory of the cache is. -/
theorem isAbsolute_cachePath (habsolute : cacheDir.isAbsolute = true) :
    (e.cachePath cacheDir).isAbsolute = true := by
  have hcache := Path.text_ne_empty_of_isAbsolute habsolute
  have hplugins : (cacheDir.child "plugins").text ≠ "" := Path.text_child_ne_empty (by decide)
  have hdir : ((cacheDir.child "plugins").child e.name).text ≠ "" := Path.text_join_ne_empty hne
  rw [cachePath, Path.child, Path.isAbsolute_join hdir (isAbsolute_way hne hname), Path.child,
    Path.isAbsolute_join hplugins (Path.isAbsolute_eq_false_of_slash hname),
    Path.isAbsolute_child (by decide) hcache, habsolute]

/-- The normal form of the path does not depend on where the process works. -/
theorem location_cachePath (habsolute : cacheDir.isAbsolute = true) (workDir : Location) :
    Location.ofPath? workDir (e.cachePath cacheDir) =
      some ⟨(e.shelf cacheDir ++ e.way).foldl step []⟩ := by
  have hpath := isAbsolute_cachePath hne hname habsolute
  rw [Location.ofPath?, if_neg (Path.text_ne_empty_of_isAbsolute hpath), hpath,
    segments_cachePath hne hname]
  rfl

end Name

section Listed

variable (hparse : PluginList.parse path text = .ok entries) (he : e ∈ entries)
  (habsolute : cacheDir.isAbsolute = true)
  (hdots : "." ∉ cacheDir.segments ∧ ".." ∉ cacheDir.segments)
include hparse he

/-- A name that is read from a list is one segment of a path. -/
theorem name_of_parse : e.name ≠ "" ∧ '/' ∉ e.name.toList := by
  have haccepted := PluginList.not_refused_of_parse hparse e he
  simp only [PluginList.Refused, not_or] at haccepted
  exact ⟨haccepted.1, haccepted.2.2.1⟩

include habsolute hdots

/-- From the directory of a module with a proper name, the path goes on along its way. -/
theorem location_cachePath_of_proper (hproper : e.name ≠ "." ∧ e.name ≠ "..")
    (workDir : Location) :
    Location.ofPath? workDir (e.cachePath cacheDir) =
      some ⟨e.way.foldl step (e.shelf cacheDir)⟩ := by
  obtain ⟨hne, hname⟩ := name_of_parse hparse he
  have hshelf : "." ∉ e.shelf cacheDir ∧ ".." ∉ e.shelf cacheDir := by
    simp [shelf, hdots, Ne.symm hproper.1, Ne.symm hproper.2]
  have hall : ∀ s ∈ e.shelf cacheDir, decide (s ≠ ".") = true := by
    intro s hs
    rw [decide_eq_true_eq]
    rintro rfl
    exact hshelf.1 hs
  rw [location_cachePath hne hname habsolute, List.foldl_append,
    FileSystem.foldl_step_of_no_up hshelf.2, List.nil_append, List.filter_eq_self.mpr hall]

/-- **Which listed modules are in the cache.** The path of a module leads to one file in the
directory of that module exactly if its name is not made of dots, and the way to the archive is back
in that directory before its last step. A version without slashes does not lead out of it, and then
the file is named for both. -/
theorem listed_within_cache (workDir : Location) :
    ((∃ file, Location.IsName file ∧ Location.ofPath? workDir (e.cachePath cacheDir) =
          some ⟨e.shelf cacheDir ++ [file]⟩) ↔
        (e.name ≠ "." ∧ e.name ≠ "..") ∧
          e.way.dropLast.foldl step (e.shelf cacheDir) = e.shelf cacheDir) ∧
      ('/' ∉ e.version.toList → e.name ≠ "." ∧ e.name ≠ ".." →
        Location.ofPath? workDir (e.cachePath cacheDir) =
          some ⟨e.shelf cacheDir ++ [e.name ++ "-" ++ e.version ++ ".hpi"]⟩) := by
  obtain ⟨hne, hname⟩ := name_of_parse hparse he
  obtain ⟨file, hfile, hway⟩ := way_eq_concat hname
  have hlast : ∀ names, step names file = names ++ [file] := fun names => by
    rw [step, if_neg hfile.2.1, if_neg hfile.2.2.1]
  have hlocation := fun hproper => location_cachePath_of_proper hparse he habsolute hdots hproper
    workDir
  rw [hway] at hlocation
  simp only [List.foldl_append, List.foldl_cons, List.foldl_nil, hlast] at hlocation
  refine ⟨⟨?_, ?_⟩, fun hversion hproper => ?_⟩
  · rintro ⟨file', -, hplace⟩
    have hproper : e.name ≠ "." ∧ e.name ≠ ".." := by
      rw [location_cachePath hne hname habsolute] at hplace
      have hnames : (e.shelf cacheDir ++ e.way).foldl step [] = e.shelf cacheDir ++ [file'] :=
        congrArg Location.names (Option.some.inj hplace)
      have hmem : e.name ∈ (e.shelf cacheDir ++ e.way).foldl step [] := by
        rw [hnames]
        simp [shelf]
      exact Location.proper_foldl_step (by simp) hmem
    have hnames := congrArg Location.names (Option.some.inj ((hlocation hproper).symm.trans hplace))
    exact ⟨hproper, (List.append_inj' hnames rfl).1⟩
  · rintro ⟨hproper, hback⟩
    exact ⟨file, hfile, by rw [hlocation hproper, hback]⟩
  · have hone := way_of_noSlash hname hversion
    rw [hone] at hway
    obtain rfl : e.name ++ "-" ++ e.version ++ ".hpi" = file := by simpa using hway
    rw [hlocation hproper, hone]
    rfl

end Listed

/-- A version with slashes that leads back into the directory of its module. -/
theorem listed_within_cache_roundabout :
    PluginList.parse ⟨"plugins.txt"⟩ "core:1/../2\n" = .ok [⟨"core", "1/../2"⟩] ∧
      ∃ file, Location.IsName file ∧
        Location.ofPath? ⟨[]⟩ ((⟨"core", "1/../2"⟩ : PluginEntry).cachePath ⟨"/c"⟩) =
          some ⟨(⟨"core", "1/../2"⟩ : PluginEntry).shelf ⟨"/c"⟩ ++ [file]⟩ := by
  have hparse : PluginList.parse ⟨"plugins.txt"⟩ "core:1/../2\n" = .ok [⟨"core", "1/../2"⟩] :=
    except_eq_ok_of_toOption (by decide)
  refine ⟨hparse, ?_⟩
  exact (listed_within_cache hparse List.mem_cons_self (by decide) (by decide)
    ⟨[]⟩).1.mpr (by decide)

/-- **Not every listed module is in the cache.** A name of two dots leads out of the directory of
the modules, and a version with slashes as far as it likes. -/
theorem not_listed_within_cache :
    ¬ ∀ (path : Path) (text : String) (entries : List PluginEntry) (e : PluginEntry)
        (cacheDir : Path) (workDir : Location),
      PluginList.parse path text = .ok entries → e ∈ entries → cacheDir.isAbsolute = true →
        "." ∉ cacheDir.segments ∧ ".." ∉ cacheDir.segments →
          ∃ file, Location.IsName file ∧ Location.ofPath? workDir (e.cachePath cacheDir) =
            some ⟨cacheDir.segments ++ ["plugins", e.name, file]⟩ := by
  intro h
  have hparse : PluginList.parse ⟨"plugins.txt"⟩ "..:1\n" = .ok [⟨"..", "1"⟩] :=
    except_eq_ok_of_toOption (by decide)
  obtain ⟨file, -, hplace⟩ := h _ _ _ ⟨"..", "1"⟩ ⟨"/c"⟩ ⟨[]⟩ hparse List.mem_cons_self
    (by decide) (by decide)
  have hcode : Location.ofPath? ⟨[]⟩ ((⟨"..", "1"⟩ : PluginEntry).cachePath ⟨"/c"⟩) =
      some ⟨["c", "..-1.hpi"]⟩ := by decide
  rw [hcode] at hplace
  have hlength : ["c", "..-1.hpi"].length =
      ((⟨"/c"⟩ : Path).segments ++ ["plugins", "..", file]).length :=
    congrArg (fun l : Location => l.names.length) (Option.some.inj hplace)
  rw [Path.segments, show Text.piecesOf '/' "/c" = ["", "c"] by decide] at hlength
  cases hlength

example : Location.ofPath? ⟨[]⟩ ((⟨"a", "../../../../../etc/x"⟩ : PluginEntry).cachePath ⟨"/c"⟩) =
    some ⟨["etc", "x.hpi"]⟩ := by decide

end PluginEntry

end RealmBoot
