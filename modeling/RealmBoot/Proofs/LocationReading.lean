import RealmBoot.Proofs.Building
import RealmBoot.Proofs.ScanCourse

/-!
# Reading What Was Found

A walk follows the links on the way to an archive. The location of the archive is made from the text
of its path alone: a `..` undoes the name before it, whether that is a link or not. The two agree
only if no link stands before a `..`, and what is wrong with a location then is noticed late, when
the manifest of the archive is read.

This module shows that they do agree if the way to the root of a scan is *straight*: if no link is
met on it before its last `..`. All that follows may be links. Then a location leads to the very
file that the walk has found, and only the length of the location can keep it from being read.

## Main results

* `FileSystem.stretch_lexical`: where no link is met, a path leads to its lexical normal form.
* `FileSystem.Straight.location_leads`: the location of a straight path leads where the path does.
* `Walk.Meets.location_leads`: the location of what a walk finds leads to where it stands.
-/

namespace RealmBoot

/-! ### The path of a location -/

namespace Location

/-- The segments of a location's path are its names. -/
theorem segments_path {l : Location} (hl : ∀ s ∈ l.names, s ≠ "" ∧ '/' ∉ s.toList) :
    l.path.segments = l.names := by
  have hslash := Path.segments_slash "" (Text.joined "/" l.names)
  rw [String.empty_append, Path.segments_empty, List.nil_append] at hslash
  rw [path, hslash, Path.segments_joined hl]

/-- The path of a location is absolute. -/
theorem isAbsolute_path (l : Location) : l.path.isAbsolute = true := by
  simp [path, Path.isAbsolute]

/-- A location's path does not end in a slash, unless it is the root. -/
theorem endsInSlash_path {l : Location} (hne : l.names ≠ [])
    (hl : ∀ s ∈ l.names, s ≠ "" ∧ '/' ∉ s.toList) : l.path.endsInSlash = false := by
  have hlast : ∀ names : List String, names ≠ [] → (∀ s ∈ names, s ≠ "" ∧ '/' ∉ s.toList) →
      ∃ c, c ≠ '/' ∧ (Text.joined "/" names).toList.getLast? = some c := by
    intro names
    induction names with
    | nil => exact fun hne => absurd rfl hne
    | cons s names ih =>
        intro _ h
        cases names with
        | nil =>
            have hs := h s List.mem_cons_self
            have hchars : s.toList ≠ [] := fun hnil => hs.1 (String.toList_eq_nil_iff.mp hnil)
            refine ⟨s.toList.getLast hchars, ?_, List.getLast?_eq_some_getLast hchars⟩
            intro hslash
            exact hs.2 (hslash ▸ List.getLast_mem hchars)
        | cons t names =>
            obtain ⟨c, hc, hget⟩ := ih (by simp) fun s hs => h s (List.mem_cons_of_mem _ hs)
            refine ⟨c, hc, ?_⟩
            rw [Text.joined, String.toList_append, List.getLast?_append, hget]
            rfl
  obtain ⟨c, hc, hget⟩ := hlast l.names hne hl
  rw [Path.endsInSlash, path, String.toList_append, List.getLast?_append, hget]
  simpa using hc

end Location

namespace FileSystem

variable {fs : FileSystem} {last : AtEnd} {links : Nat} {here q : Place}
  {trail todo names more : List String} {p : Path}

/-! ### Where no link is met -/

/-- **A path on which no link is met leads to its lexical normal form.** -/
theorem stretch_lexical (h : fs.stretch last trail todo = .done (.arrived q)) :
    todo.foldl Location.step trail.reverse = q := by
  rw [stretch_eq_iff] at h
  generalize hr : Stretch.done (.arrived q) = r at h
  induction h with
  | nil =>
      cases hr
      rfl
  | dot _ ih => exact ih hr
  | up _ ih =>
      rw [List.foldl_cons, Location.step, if_neg (by decide), if_pos rfl, List.dropLast_reverse]
      exact ih hr
  | into hs _ _ ih =>
      rw [List.foldl_cons, Location.step, if_neg hs.notHere, if_neg hs.notUp, ← List.reverse_cons]
      exact ih hr
  | arrived hs =>
      cases hr
      rw [List.foldl_cons, Location.step, if_neg hs.notHere, if_neg hs.notUp, ← List.reverse_cons]
      rfl
  | vacant | tooLong | missing | blocked | crossing => cases hr

/-- Segments without `..` lead lexically down by all that are no dots. -/
theorem foldl_step_of_no_up (hup : ".." ∉ todo) (names : List String) :
    todo.foldl Location.step names = names ++ todo.filter (· ≠ ".") := by
  induction todo generalizing names with
  | nil => simp
  | cons s todo ih =>
      simp only [List.mem_cons, not_or] at hup
      rw [List.foldl_cons, Location.step, if_neg (Ne.symm hup.1)]
      split_ifs with hdot
      · subst hdot
        exact ih hup.2 names
      · rw [ih hup.2, List.filter_cons_of_pos (by simpa using hdot), List.append_assoc]
        rfl

/-- Names of directories lead down to them. -/
theorem stretch_down (last : AtEnd) (trail : List String) (hnames : ∀ s ∈ names, NameAllowed s)
    (hdir : fs.node? (trail.reverse ++ names) = some .directory) (more : List String) :
    fs.stretch last trail (names ++ more) = fs.stretch last (names.reverse ++ trail) more := by
  induction names generalizing trail with
  | nil => rfl
  | cons s names ih =>
      have hs := hnames s List.mem_cons_self
      have hplace : trail.reverse ++ s :: names = (s :: trail).reverse ++ names := by simp
      rw [hplace] at hdir
      have hnode : fs.node? (s :: trail).reverse = some .directory := by
        cases names with
        | nil => rwa [List.append_nil] at hdir
        | cons t names => exact node?_parent (by simp) hdir
      rw [List.cons_append, hs.lookedUp.stretch_cons, hnode, enter,
        ih (s :: trail) (fun s hs => hnames s (List.mem_cons_of_mem _ hs)) hdir]
      simp

/-- Segments on which no link is met can be followed first. -/
theorem follow_append_of_stretch (hdir : fs.node? here = some .directory)
    (hstretch : fs.stretch .followed here.reverse todo = .done (.arrived q))
    (hq : fs.node? q = some .directory) (more : List String) :
    fs.follow .followed links here (todo ++ more) = fs.follow .followed links q more := by
  rw [follow_eq_resume hdir, follow_eq_resume hq]
  congr 1
  cases more with
  | nil => rw [List.append_nil, hstretch, stretch_nil, List.reverse_reverse]
  | cons s more =>
      rw [stretch_append (by rwa [List.reverse_reverse]) (by simp), hstretch, onward,
        if_pos (isDirectoryAt_iff.mpr hq)]

/-! ### Straight ways -/

/-- No link is met on a path before its last `..`. -/
def Straight (fs : FileSystem) (p : Path) : Prop :=
  ∃ before after q, p.segments = before ++ after ∧ ".." ∉ after ∧
    fs.stretch .followed (start fs.workLocation.names p).reverse before = .done (.arrived q) ∧
    fs.node? q = some .directory

/-- A straight way that is made longer by names is straight. -/
theorem Straight.append {root : Path} (h : fs.Straight root)
    (hsegments : p.segments = root.segments ++ names) (hnames : ∀ s ∈ names, NameAllowed s)
    (habsolute : p.isAbsolute = root.isAbsolute) : fs.Straight p := by
  obtain ⟨before, after, q, hroot, hup, hstretch, hq⟩ := h
  refine ⟨before, after ++ names, q, ?_, ?_, ?_, hq⟩
  · rw [hsegments, hroot, List.append_assoc]
  · rw [List.mem_append, not_or]
    exact ⟨hup, fun h => (hnames _ h).isName.2.2.1 rfl⟩
  · rwa [start, habsolute]

/-! ### The way to a location -/

variable {l : Location}

/-- **The location of a straight path leads where the path does.** Behind the directory that its way
up ends in, the location has the names that are left of the path. -/
theorem Straight.location_leads {links : Nat} (hnamed : fs.Named) (h : fs.Straight p)
    (hnull : ∀ s ∈ p.segments, '\x00' ∉ s.toList)
    (hl : Location.ofPath? fs.workLocation p = some l)
    (hfollow : fs.follow .followed links (start fs.workLocation.names p) (steps p) =
      .ok (.arrived q)) :
    (∀ s ∈ l.names, Location.IsName s ∧ '\x00' ∉ s.toList) ∧
      fs.follow .followed links [] l.names = .ok (.arrived q) := by
  obtain ⟨before, after, q₀, hsegments, hup, hstretch, hq₀⟩ := h
  have hspelled : l.names = q₀ ++ after.filter (· ≠ ".") := by
    have hne : p.text ≠ "" := by
      intro hempty
      rw [Location.ofPath?, if_pos hempty] at hl
      cases hl
    rw [Location.ofPath?, if_neg hne, Option.some.injEq] at hl
    have hlexical := stretch_lexical hstretch
    rw [List.reverse_reverse, start] at hlexical
    rw [← hl, hsegments, List.foldl_append, hlexical, foldl_step_of_no_up hup]
  constructor
  · intro s hs
    rw [hspelled, List.mem_append, List.mem_filter] at hs
    rcases hs with hs | ⟨hs, hdot⟩
    · have hallowed := hnamed q₀ _ hq₀ s hs
      exact ⟨hallowed.isName, hallowed.noNull⟩
    · have hmem : s ∈ p.segments := hsegments ▸ List.mem_append_right _ hs
      obtain ⟨hne, hslash, -⟩ := Path.of_mem_segments hmem
      exact ⟨⟨hne, by simpa using hdot, fun h => hup (h ▸ hs), hslash⟩, hnull s hmem⟩
  · obtain ⟨dots, hdots, hsteps⟩ : ∃ dots, dots.filter (· ≠ ".") = [] ∧
        steps p = before ++ (after ++ dots) := by
      rw [steps, hsegments]
      split_ifs
      · exact ⟨["."], rfl, by simp⟩
      · exact ⟨[], rfl, by simp⟩
    have hdir : fs.node? (start fs.workLocation.names p) = some .directory :=
      (follow_eq_ok_iff.mp hfollow).from_directory
    rw [hsteps, follow_append_of_stretch hdir hstretch hq₀] at hfollow
    have hfewer := follow_fewerDots (fewerDots_filter _) hfollow
    rw [List.filter_append, hdots, List.append_nil] at hfewer
    have hdown : fs.stretch .followed [] q₀ = .done (.arrived q₀) := by
      have hnames₀ := stretch_down .followed [] (hnamed q₀ _ hq₀) hq₀ []
      rwa [List.append_nil, List.append_nil, stretch_nil, List.reverse_reverse] at hnames₀
    rw [hspelled, follow_append_of_stretch (node?_root fs) hdown hq₀]
    exact hfewer

/-- Where a location leads whose names can be followed. -/
theorem lead_location (hnames : ∀ s ∈ l.names, Location.IsName s ∧ '\x00' ∉ s.toList)
    (hne : l.names ≠ []) (hfollow : fs.follow last linkLimit [] l.names = .ok (.arrived q)) :
    fs.lead last l.path =
      if pathLimit < l.path.text.utf8ByteSize then .error .nameTooLong else .ok (.arrived q) := by
  have hsegments : ∀ s ∈ l.names, s ≠ "" ∧ '/' ∉ s.toList := fun s hs =>
    ⟨(hnames s hs).1.1, (hnames s hs).1.2.2.2⟩
  have hempty : l.path.text ≠ "" := by simp [Location.path]
  have hnull : '\x00' ∉ l.path.text.toList := by
    intro h
    rw [Location.path, String.toList_append, List.mem_append] at h
    rcases h with h | h
    · simp at h
    · rcases Text.of_mem_joined h with h | ⟨s, hs, h⟩
      · simp at h
      · exact (hnames s hs).2 h
  have hsteps : steps l.path = l.names := by
    rw [steps, Location.endsInSlash_path hne hsegments, Location.segments_path hsegments]
    rfl
  split_ifs with hlong
  · rw [lead, checkPath, if_neg hnull, if_neg hempty, if_pos hlong]
    rfl
  · refine lead_eq_arrived_iff.mpr ⟨?_, ?_, ?_⟩
    · rw [checkPath, if_neg hnull, if_neg hempty, if_neg hlong]
    · simp [isAdrift, Location.isAbsolute_path]
    · rw [hsteps, start, if_pos (Location.isAbsolute_path l)]
      exact hfollow

end FileSystem

namespace Walk

open FileSystem

variable {fs : FileSystem} {root : Path} {m : Sighting} {n : Node} {q : Place} {l : Location}

/-- The path of what a walk comes to is the root's made longer by names. -/
theorem Meets.spelled (hnamed : fs.Named) (h : Meets fs root m) :
    ∃ names, m.path.segments = root.segments ++ names ∧ (∀ s ∈ names, NameAllowed s) ∧
      m.path.isAbsolute = root.isAbsolute := by
  obtain ⟨q, hlead, hreach⟩ := h
  induction hreach with
  | refl => exact ⟨[], by simp, by simp, rfl⟩
  | tail hreach hstep ih =>
      obtain ⟨names, hsegments, hnames, habsolute⟩ := ih
      obtain ⟨n, hvalid⟩ := Meets.exists_valid hnamed ⟨q, hlead, hreach⟩
      cases hstep with
      | @into _ s _ _ hnode =>
          have hname := hnamed _ _ hnode s (by simp)
          refine ⟨names ++ [s], ?_, ?_, ?_⟩
          · rw [Path.segments_child hname.isName, hsegments, List.append_assoc]
          · intro s' hs'
            rcases List.mem_append.mp hs' with hs' | hs'
            · exact hnames s' hs'
            · obtain rfl := List.mem_singleton.mp hs'
              exact hname
          · rw [Path.isAbsolute_child hname.isName hvalid.nonempty, habsolute]

/-- The path of a file, or of a link to one, is followed to the file. -/
theorem Sighting.Valid.follow_file (hvalid : m.Valid fs n) (hfile : m.FileAt fs q) :
    fs.follow .followed linkLimit (start fs.workLocation.names m.path) (steps m.path) =
      .ok (.arrived q) := by
  obtain ⟨⟨bytes, time, hq⟩, rfl | ⟨-, hplace⟩⟩ := hfile
  · refine hvalid.arrives ?_
    cases hvalid.stands.symm.trans hq
    simp [Node.kind]
  · exact (lead_eq_arrived_iff.mp (place_eq_ok_iff.mp hplace)).2.2

/-- **The location of what a walk finds leads to where it stands**, if the way to the root of the
walk is straight. -/
theorem Meets.location_leads (hnamed : fs.Named) (hstraight : fs.Straight root)
    (hm : Meets fs root m) (hfile : m.FileAt fs q)
    (hl : Location.ofPath? fs.workLocation m.path = some l) :
    (∀ s ∈ l.names, Location.IsName s ∧ '\x00' ∉ s.toList) ∧
      fs.follow .followed linkLimit [] l.names = .ok (.arrived q) := by
  obtain ⟨n, hvalid⟩ := hm.exists_valid hnamed
  obtain ⟨names, hsegments, hnames, habsolute⟩ := hm.spelled hnamed
  obtain ⟨_, hlead, -⟩ := hm
  refine (hstraight.append hsegments hnames habsolute).location_leads hnamed (fun s hs => ?_) hl
    (hvalid.follow_file hfile)
  rw [hsegments, List.mem_append] at hs
  rcases hs with hs | hs
  · have hnull := noNull_of_checkPath (lead_eq_arrived_iff.mp hlead).1
    obtain ⟨-, -, hchars⟩ := Path.of_mem_segments hs
    exact fun h => hnull (hchars _ h)
  · exact (hnames s hs).noNull

end Walk

/-! ### Scanning and reading -/

namespace Scanner

variable {fs : FileSystem} {root : Path} {s : Scanner} {accepts : Location → Bool}
  {found : OrderedSet Location} {l : Location}

/-- What a scan finds is a file that the walk came to, and can be read under its location unless
that is too long. -/
theorem read_of_scan (hnamed : fs.Named) (hstraight : fs.Straight root)
    (hscan : s.scan fs root accepts = .ok found) (hl : l ∈ found) :
    ∃ m q bytes time, Walk.Meets fs root m ∧ m.FileAt fs q ∧
      Location.ofPath? fs.workLocation m.path = some l ∧
      fs.node? q = some (.file bytes time) ∧
      fs.read l.path =
        if FileSystem.pathLimit < l.path.text.utf8ByteSize then .error .nameTooLong
        else .ok bytes := by
  obtain ⟨⟨m, q, hm, -, hfile, hlocation⟩, -⟩ := (mem_scan_iff hnamed hscan).mp hl
  obtain ⟨bytes, time, hq⟩ := hfile.1
  obtain ⟨hnames, hfollow⟩ := hm.location_leads hnamed hstraight hfile hlocation
  have hne : l.names ≠ [] := by
    intro hnil
    rw [hnil, FileSystem.follow_eq_resume (FileSystem.node?_root fs)] at hfollow
    obtain rfl : [] = q := by simpa [FileSystem.resume] using hfollow
    rw [FileSystem.node?_root] at hq
    cases hq
  refine ⟨m, q, bytes, time, hm, hfile, hlocation, hq, ?_⟩
  rw [FileSystem.read, FileSystem.stat, FileSystem.lead_location hnames hne hfollow]
  split_ifs with hlong
  · rfl
  · have hat : fs.nodeAt (.arrived q) = .ok (.file bytes time) := by
      rw [FileSystem.nodeAt, hq]
    rw [except_bind_eq_ok_iff]
    exact ⟨_, except_bind_eq_ok_iff.mpr ⟨_, rfl, hat⟩, rfl⟩

/-- What a scan finds is never missing when its manifest is read. -/
theorem ofArchive_ne_notFound (hnamed : fs.Named) (hstraight : fs.Straight root)
    (hscan : s.scan fs root accepts = .ok found) (hl : l ∈ found) (p : Path) :
    Manifest.ofArchive fs l ≠ .error (.io p .notFound) := by
  obtain ⟨m, q, bytes, time, -, -, -, -, hread⟩ := read_of_scan hnamed hstraight hscan hl
  rw [Manifest.ofArchive, hread]
  split_ifs
  · simp
  · dsimp only
    split <;> simp

/-- **What a scan finds can be read**, if the way to its root is straight. Every location it finds
is that of a file which the walk came to, and unless the location is too long, it gives the bytes of
that very file. A realm that collects the root cannot fail to be sealed because one of the archives
found is missing: a missing archive must have been there before. -/
theorem found_can_be_read (hnamed : fs.Named) (hstraight : fs.Straight root) :
    (∀ (s : Scanner) (accepts : Location → Bool) (found : OrderedSet Location),
      s.scan fs root accepts = .ok found → ∀ l ∈ found, ∃ m q bytes time,
        Walk.Meets fs root m ∧ m.FileAt fs q ∧ Location.ofPath? fs.workLocation m.path = some l ∧
        fs.node? q = some (.file bytes time) ∧
        fs.read l.path =
          if FileSystem.pathLimit < l.path.text.utf8ByteSize then .error .nameTooLong
          else .ok bytes) ∧
    ∀ (b b' : RealmBuilder) (p : Path), b.collect fs root = .ok b' →
      b'.make fs = .error (.io p .notFound) →
        ∃ a ∈ b.archives, Manifest.ofArchive fs a = .error (.io p .notFound) ∧
          ¬ b.scanner.Finds fs root a := by
  refine ⟨fun s accepts found hscan l hl => read_of_scan hnamed hstraight hscan hl, ?_⟩
  intro b b' p hcollect hmake
  obtain ⟨found, hscan, rfl⟩ := RealmBuilder.collect_eq_ok_iff.mp hcollect
  obtain ⟨a, ha, hmissing⟩ := RealmBuilder.exists_of_make_error hmake
  have hnot : a ∉ found := fun h => ofArchive_ne_notFound hnamed hstraight hscan h p hmissing
  refine ⟨a, (OrderedSet.mem_union.mp ha).resolve_right hnot, hmissing, ?_⟩
  rintro ⟨found', hscan', ha'⟩
  cases hscan.symm.trans hscan'
  exact hnot ha'

/-! ### A link before the way up -/

/-- A repository that is a link, with archives beside what it leads to and others below it. -/
def linkedFiles : FileSystem :=
  { root := [
      ("elsewhere", .directory [
        ("lib", .directory [("x.jar", .file "Export-Types: x.X\n".toUTF8 (.at 0))]),
        ("real", .directory [("y.jar", .file "Export-Types: y.Y\n".toUTF8 (.at 0))])]),
      ("repo", .link ⟨"elsewhere/real"⟩)] }

/-- The names in these files are allowed. -/
theorem linkedFiles_named : linkedFiles.Named :=
  FileSystem.named_of_namesAllowed (by decide)

/-- The general theorem for a root whose way goes up first and crosses the link then: what is below
the link can be read. -/
theorem found_can_be_read_linked :
    linkedFiles.Straight ⟨"elsewhere/../repo"⟩ ∧
      (modules.scanAll linkedFiles ⟨"elsewhere/../repo"⟩).toOption.map (·.toList) =
        some [⟨["repo", "y.jar"]⟩] ∧
      ∀ found, modules.scanAll linkedFiles ⟨"elsewhere/../repo"⟩ = .ok found →
        ∀ l ∈ found, ∃ bytes, linkedFiles.read l.path = .ok bytes ∨
          FileSystem.pathLimit < l.path.text.utf8ByteSize := by
  have hstraight : linkedFiles.Straight ⟨"elsewhere/../repo"⟩ :=
    ⟨["elsewhere", ".."], ["repo"], [], by decide, by decide, by decide,
      rfl⟩
  refine ⟨hstraight, by decide +kernel, fun found hscan l hl => ?_⟩
  obtain ⟨_, _, bytes, _, _, _, _, _, hread⟩ :=
    (found_can_be_read linkedFiles_named hstraight).1 .modules _ found hscan l hl
  refine ⟨bytes, ?_⟩
  split_ifs at hread with hlong
  · exact .inr hlong
  · exact .inl hread

/-- **Not everything that a scan finds can be read.** Where the link is crossed on the way up, the
location of an archive is that of nothing, and the realm that has collected it cannot be sealed. -/
theorem not_found_can_be_read :
    (¬ ∀ (fs : FileSystem) (s : Scanner) (root : Path) (found : OrderedSet Location), fs.Named →
      s.scanAll fs root = .ok found → ∀ l ∈ found, ∃ bytes, fs.read l.path = .ok bytes) ∧
    ¬ ∀ (fs : FileSystem) (root : Path) (b b' : RealmBuilder), fs.Named → b.archives = ∅ →
      b.collect fs root = .ok b' → ∀ p, b'.make fs ≠ .error (.io p .notFound) := by
  constructor
  · intro h
    have hscan : (modules.scanAll linkedFiles ⟨"repo/../lib"⟩).toOption.map (·.toList) =
        some [⟨["lib", "x.jar"]⟩] := by decide
    have hread : (linkedFiles.read (⟨["lib", "x.jar"]⟩ : Location).path).toOption = none := by
      decide
    obtain ⟨found, hfound, hlist⟩ := Option.map_eq_some_iff.mp hscan
    cases hresult : modules.scanAll linkedFiles ⟨"repo/../lib"⟩ with
    | error e => simp [hresult, Except.toOption] at hfound
    | ok found' =>
        obtain rfl : found' = found := by simpa [hresult, Except.toOption] using hfound
        have hmem : (⟨["lib", "x.jar"]⟩ : Location) ∈ found' := by
          rw [OrderedSet.mem_def, hlist]
          exact List.mem_singleton_self _
        obtain ⟨bytes, hbytes⟩ := h _ _ _ _ linkedFiles_named hresult _ hmem
        rw [hbytes] at hread
        cases hread
  · intro h
    have hmake : ((({ label := "b" } : RealmBuilder).collect linkedFiles
        ⟨"repo/../lib"⟩).toOption.bind fun b => failure? (b.make linkedFiles)) =
          some (.io ⟨"/lib/x.jar"⟩ .notFound) := by decide
    obtain ⟨b', hb', hfailure⟩ := Option.bind_eq_some_iff.mp hmake
    cases hresult : ({ label := "b" } : RealmBuilder).collect linkedFiles ⟨"repo/../lib"⟩ with
    | error e => simp [hresult, Except.toOption] at hb'
    | ok b =>
        obtain rfl : b = b' := by simpa [hresult, Except.toOption] using hb'
        refine h _ _ _ b linkedFiles_named rfl hresult ⟨"/lib/x.jar"⟩ ?_
        cases hsealed : b.make linkedFiles with
        | ok realm => simp [hsealed, failure?] at hfailure
        | error e => simpa [hsealed, failure?] using hfailure

end Scanner

end RealmBoot
