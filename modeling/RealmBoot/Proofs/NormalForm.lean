import RealmBoot.Proofs.LocationReading
import RealmBoot.Proofs.MakingDirectories

/-!
# The Normal Form of a Path

The location of a path is found from its segments in one go. One can also make the path absolute
first, as the system does, which keeps its `..`, and undo these component by component afterwards.
This module shows that the two agree for every way of writing the working directory, and that
locations are a normal form: the path of a location denotes it again, wherever one works, and a path
can be put in normal form before something is joined to it.

## Main results

* `Location.map_ofAbsolute_absolute?`: the location of a path is that of its absolute form.
* `Location.isName_of_ofPath?`: a location has names only, no dots and no empty parts.
* `Location.ofPath?_join`: joining a path to a location and to any path of it is the same.
* `Location.ofPath?_ascend`: nothing lies above the root.
* `Location.ofPath?_canonical`: the laws together.
-/

namespace RealmBoot

/-! ### Component by component -/

/-- Takes one step from a place given by its names. The first component of an absolute path leads to
the root from everywhere. -/
def Component.step (names : List String) : Component → List String
  | root => []
  | here => names
  | up => names.dropLast
  | name s => names ++ [s]

namespace Path

variable {p q : Path} {s : String} {cs : List Component}

/-- The components of a path without the one that tells where it starts. -/
theorem filter_components (p : Path) :
    p.components.filter (fun c => c ≠ .root && c ≠ .here) =
      p.segments.filterMap Component.ofSegment? := by
  have hkept : ∀ segments : List String,
      (segments.filterMap Component.ofSegment?).filter (fun c => c ≠ .root && c ≠ .here) =
        segments.filterMap Component.ofSegment? := by
    intro segments
    refine List.filter_eq_self.mpr fun c hc => ?_
    obtain ⟨s, -, hs⟩ := List.mem_filterMap.mp hc
    rw [Component.ofSegment?] at hs
    split_ifs at hs <;> cases hs <;> rfl
  rw [components]
  split_ifs with habsolute
  · exact hkept p.segments
  · split
    · next rest hdot => exact hdot ▸ hkept rest
    · exact hkept p.segments

/-- The segments of a path to which components were joined one after another. -/
theorem segments_foldl_join (start : Path)
    (hcs : ∀ s ∈ cs.map Component.text, s ≠ "" ∧ '/' ∉ s.toList) :
    (cs.foldl (fun q c => q.join ⟨c.text⟩) start).segments =
      start.segments ++ cs.map Component.text := by
  induction cs generalizing start with
  | nil => simp
  | cons c cs ih =>
      have hc := hcs c.text (by simp)
      have hfirst : (start.join ⟨c.text⟩).segments = start.segments ++ [c.text] := by
        rw [segments_join (isAbsolute_eq_false_of_slash hc.2), segments_name hc.1 hc.2]
      rw [List.foldl_cons, ih _ fun s hs => hcs s (List.mem_cons_of_mem _ hs), hfirst,
        List.append_assoc]
      rfl

/-- What is joined to an absolute path leaves it absolute. -/
theorem isAbsolute_foldl_join (cs : List Component) {start : Path}
    (h : start.isAbsolute = true) :
    (cs.foldl (fun q c => q.join ⟨c.text⟩) start).isAbsolute = true := by
  induction cs generalizing start with
  | nil => exact h
  | cons c cs ih => exact ih (isAbsolute_join_of_left h _)

/-- What the absolute form of a path starts with: the working directory, or the slashes of the path
itself. -/
def origin (workDir p : Path) : Path :=
  if !p.isAbsolute then workDir
  else if p.text.toList.take 2 == ['/', '/'] && p.text.toList[2]? != some '/' then ⟨"//"⟩
  else ⟨"/"⟩

/-- The path that another one starts from is absolute if the working directory is. -/
theorem isAbsolute_origin {workDir : Path} (hwork : workDir.isAbsolute = true) (p : Path) :
    (origin workDir p).isAbsolute = true := by
  rw [origin]
  split_ifs
  · exact hwork
  · rfl
  · rfl

/-- Its segments are those of the working directory, or none for an absolute path. -/
theorem segments_origin (workDir p : Path) :
    (origin workDir p).segments = if p.isAbsolute then [] else workDir.segments := by
  rw [origin]
  cases p.isAbsolute with
  | false => rfl
  | true =>
      simp only [Bool.not_true, Bool.false_eq_true, if_false, if_true]
      split_ifs <;> rfl

/-- **The absolute form of a path** starts at the root and goes on from the working directory,
unless the path is absolute itself. Dots between names are gone, and those that lead up are not. -/
theorem absolute?_spec {workDir : Path} (hwork : workDir.isAbsolute = true) (hp : p.text ≠ "") :
    ∃ full, absolute? workDir p = some full ∧ full.isAbsolute = true ∧
      full.segments = (if p.isAbsolute then [] else workDir.segments) ++
        p.segments.filter (· ≠ ".") := by
  have hplain : ∀ s ∈ (p.segments.filterMap Component.ofSegment?).map Component.text,
      s ≠ "" ∧ '/' ∉ s.toList := by
    intro s hs
    rw [map_text_ofSegment] at hs
    obtain ⟨hne, hslash, -⟩ := of_mem_segments (List.mem_filter.mp hs).1
    exact ⟨hne, hslash⟩
  have hsegments := segments_foldl_join (origin workDir p) hplain
  rw [segments_origin, map_text_ofSegment] at hsegments
  have habsolute := isAbsolute_foldl_join (p.segments.filterMap Component.ofSegment?)
    (isAbsolute_origin hwork p)
  generalize hfull : (p.segments.filterMap Component.ofSegment?).foldl
    (fun q c => q.join ⟨c.text⟩) (origin workDir p) = full at hsegments habsolute
  have hform : absolute? workDir p = some (if p.endsInSlash then full.join ⟨""⟩ else full) := by
    rw [absolute?, if_neg hp, filter_components, ← hfull]
    rfl
  cases hslash : p.endsInSlash with
  | false => exact ⟨full, by simpa [hslash] using hform, habsolute, hsegments⟩
  | true =>
      refine ⟨full.join ⟨""⟩, by simpa [hslash] using hform,
        isAbsolute_join_of_left habsolute _, ?_⟩
      rw [segments_join rfl, hsegments, segments_empty, List.append_nil]

/-- The absolute form of a path is absolute. -/
theorem isAbsolute_of_absolute? {workDir : Path} (hwork : workDir.isAbsolute = true)
    (h : absolute? workDir p = some q) : q.isAbsolute = true := by
  have hp : p.text ≠ "" := by
    intro hempty
    rw [absolute?, if_pos hempty] at h
    cases h
  obtain ⟨full, hfull, habsolute, -⟩ := absolute?_spec hwork hp
  cases hfull.symm.trans h
  exact habsolute

end Path

namespace FileSystem

variable {fs : FileSystem} {p q : Path}

/-- An absolute form is absolute. -/
theorem isAbsolute_of_absolute (h : fs.absolute p = .ok q) : q.isAbsolute = true := by
  rw [absolute] at h
  split_ifs at h
  split at h
  · next hq =>
      cases h
      exact Path.isAbsolute_of_absolute? (Location.isAbsolute_path _) hq
  · cases h

/-- A path has an absolute form if it is not empty and does not start from a working directory that
is gone. -/
theorem exists_absolute (hp : p.text ≠ "") (hadrift : fs.isAdrift p = false) :
    ∃ full, fs.absolute p = .ok full := by
  obtain ⟨full, hfull, -, -⟩ :=
    Path.absolute?_spec (Location.isAbsolute_path fs.workLocation) hp
  refine ⟨full, ?_⟩
  rw [absolute, hadrift, hfull]
  rfl

end FileSystem

namespace Location

variable {workDir l : Location} {names todo : List String} {p q : Path} {s : String}

/-- The location that the components of an absolute path lead to, one after another. -/
def ofAbsolute (p : Path) : Location := ⟨p.components.foldl Component.step []⟩

/-- Components lead where their segments do. -/
theorem foldl_step_ofSegment (segments names : List String) :
    (segments.filterMap Component.ofSegment?).foldl Component.step names =
      segments.foldl step names := by
  induction segments generalizing names with
  | nil => rfl
  | cons s segments ih =>
      rw [List.filterMap_cons, List.foldl_cons, Component.ofSegment?, step]
      split_ifs with hdot hup
      · exact ih names
      · exact ih names.dropLast
      · exact ih (names ++ [s])

/-- The normal form of an absolute path is had by taking its segments one by one. -/
theorem ofAbsolute_eq (h : p.isAbsolute = true) : ofAbsolute p = ⟨p.segments.foldl step []⟩ := by
  rw [ofAbsolute, Path.components, if_pos h, List.foldl_cons, Component.step, foldl_step_ofSegment]

/-- Dots may be left out. -/
theorem foldl_step_filter (todo names : List String) :
    (todo.filter (· ≠ ".")).foldl step names = todo.foldl step names := by
  induction todo generalizing names with
  | nil => rfl
  | cons s todo ih =>
      by_cases hdot : s = "."
      · subst hdot
        exact ih names
      · rw [List.filter_cons_of_pos (by simpa using hdot), List.foldl_cons, List.foldl_cons]
        exact ih _

/-- The location of a path that is not empty. -/
theorem ofPath?_of_ne (hp : p.text ≠ "") :
    ofPath? workDir p = some ⟨p.segments.foldl step (if p.isAbsolute then [] else workDir.names)⟩ :=
  if_neg hp

/-- **The location of a path is that of its absolute form**, however the working directory is
written. -/
theorem map_ofAbsolute_absolute? {workDir : Path} (hwork : workDir.isAbsolute = true) (p : Path) :
    (Path.absolute? workDir p).map ofAbsolute = ofPath? (ofAbsolute workDir) p := by
  by_cases hp : p.text = ""
  · rw [Path.absolute?, ofPath?, if_pos hp, if_pos hp]
    rfl
  · obtain ⟨full, hfull, habsolute, hsegments⟩ := Path.absolute?_spec hwork hp
    rw [hfull, Option.map_some, ofAbsolute_eq habsolute, ofPath?_of_ne hp, ofAbsolute_eq hwork,
      hsegments, List.foldl_append, foldl_step_filter]
    cases p.isAbsolute <;> rfl

/-! ### A normal form -/

/-- What is reached step by step has names only. -/
theorem isName_foldl_step (hnames : ∀ s ∈ names, IsName s)
    (htodo : ∀ s ∈ todo, s ≠ "" ∧ '/' ∉ s.toList) : ∀ s ∈ todo.foldl step names, IsName s := by
  induction todo generalizing names with
  | nil => exact hnames
  | cons t todo ih =>
      refine ih (fun s hs => ?_) fun s hs => htodo s (List.mem_cons_of_mem _ hs)
      rw [step] at hs
      split_ifs at hs with hdot hup
      · exact hnames s hs
      · exact hnames s ((List.dropLast_sublist names).subset hs)
      · rcases List.mem_append.mp hs with hs | hs
        · exact hnames s hs
        · obtain ⟨hne, hslash⟩ := htodo t List.mem_cons_self
          rw [List.mem_singleton.mp hs]
          exact ⟨hne, hdot, hup, hslash⟩

/-- The segments of a path can be stepped along. -/
theorem isName_foldl_segments (hnames : ∀ s ∈ names, IsName s) (p : Path) :
    ∀ s ∈ p.segments.foldl step names, IsName s := by
  refine isName_foldl_step hnames fun s hs => ?_
  obtain ⟨hne, hslash, -⟩ := Path.of_mem_segments hs
  exact ⟨hne, hslash⟩

/-- Every part of a normal form is a name. -/
theorem isName_ofAbsolute (h : p.isAbsolute = true) : ∀ s ∈ (ofAbsolute p).names, IsName s := by
  rw [ofAbsolute_eq h]
  exact isName_foldl_segments (by simp) p

/-- **A location has names only**, none of them empty or made of dots, if that is so of the working
directory. -/
theorem isName_of_ofPath? (hwork : ∀ s ∈ workDir.names, IsName s)
    (hl : ofPath? workDir p = some l) : ∀ s ∈ l.names, IsName s := by
  have hp : p.text ≠ "" := by
    intro hempty
    rw [ofPath?, if_pos hempty] at hl
    cases hl
  cases (ofPath?_of_ne hp).symm.trans hl
  refine isName_foldl_segments ?_ p
  split_ifs
  · simp
  · exact hwork

section Names

variable (hl : ∀ s ∈ l.names, IsName s)
include hl

/-- The path of a location has its names for segments. -/
theorem segments_path_of_isName : l.path.segments = l.names :=
  segments_path fun s hs => ⟨(hl s hs).1, (hl s hs).2.2.2⟩

/-- The components of a location's path are its names, from the root on. -/
theorem components_path : l.path.components = .root :: l.names.map .name := by
  have hnames : l.names.filterMap Component.ofSegment? = l.names.map .name := by
    rw [← List.filterMap_eq_map]
    refine List.filterMap_congr fun s hs => ?_
    rw [Component.ofSegment?, if_neg (hl s hs).2.1, if_neg (hl s hs).2.2.1]
    rfl
  rw [Path.components, if_pos (isAbsolute_path l), segments_path_of_isName hl, hnames]

/-- Names are taken as they are. -/
theorem foldl_step_names (before : List String) :
    l.names.foldl step before = before ++ l.names := by
  have hup : ".." ∉ l.names := fun h => (hl ".." h).2.2.1 rfl
  have hdot : l.names.filter (· ≠ ".") = l.names := by
    refine List.filter_eq_self.mpr fun s hs => ?_
    simpa using (hl s hs).2.1
  rw [FileSystem.foldl_step_of_no_up hup, hdot]

/-- **The path of a location denotes it**, wherever one works. -/
theorem ofPath?_path (workDir : Location) : ofPath? workDir l.path = some l := by
  rw [ofPath?_of_ne (Path.text_ne_empty_of_isAbsolute (isAbsolute_path l)), isAbsolute_path,
    segments_path_of_isName hl, if_pos rfl, foldl_step_names hl]
  rfl

end Names

/-! ### Joining -/

/-- A path that is not empty stays so when something is joined to it. -/
theorem text_join_ne_empty_of_left (hp : p.text ≠ "") (q : Path) : (p.join q).text ≠ "" := by
  by_cases hq : q.text = ""
  · rw [Path.join]
    split_ifs with habsolute
    · exact absurd hq (Path.text_ne_empty_of_isAbsolute habsolute)
    · simp [hp]
    · simp [hp]
  · exact Path.text_join_ne_empty hq

/-- A relative path leads on from the location of the path it is joined to. -/
theorem ofPath?_join_of_relative (hq : q.isAbsolute = false) (hp : ofPath? workDir p = some l) :
    ofPath? workDir (p.join q) = some ⟨q.segments.foldl step l.names⟩ := by
  have hne : p.text ≠ "" := by
    intro hempty
    rw [ofPath?, if_pos hempty] at hp
    cases hp
  cases (ofPath?_of_ne hne).symm.trans hp
  rw [ofPath?_of_ne (text_join_ne_empty_of_left hne q), Path.isAbsolute_join hne hq,
    Path.segments_join hq, List.foldl_append]

/-- **A path can be put in normal form before something is joined to it.** -/
theorem ofPath?_join (hl : ∀ s ∈ l.names, IsName s) (hp : ofPath? workDir p = some l) (q : Path) :
    ofPath? workDir (p.join q) = ofPath? workDir (l.path.join q) := by
  cases hq : q.isAbsolute with
  | true => rw [Path.join, Path.join, if_pos hq, if_pos hq]
  | false => rw [ofPath?_join_of_relative hq hp, ofPath?_join_of_relative hq (ofPath?_path hl _)]

/-- A path that leads up a number of times from another one. -/
def ascend (p : Path) : Nat → Path
  | 0 => p
  | n + 1 => (ascend p n).child ".."

/-- **Nothing lies above the root**: a way up loses one name at a time, until none is left. -/
theorem ofPath?_ascend (hp : ofPath? workDir p = some l) (n : Nat) :
    ofPath? workDir (ascend p n) = some ⟨l.names.take (l.names.length - n)⟩ := by
  induction n with
  | zero => rw [Nat.sub_zero, List.take_length, ascend, hp]
  | succ n ih =>
      have hup : (⟨".."⟩ : Path).segments = [".."] := Path.segments_name (by decide) (by decide)
      rw [ascend, Path.child, ofPath?_join_of_relative (by decide) ih, hup, List.foldl_cons,
        List.foldl_nil, step, if_neg (by decide), if_pos rfl, List.dropLast_eq_take, List.take_take,
        List.length_take]
      congr 3
      omega

/-- **Locations are a normal form of paths that agrees with joining.** From any absolute working
directory, however that is written, a path that is not empty has a location, which is also the one
of its absolute form. The path of the location starts at the root and has names for components, none
of them empty or made of dots. It denotes the location again, wherever one works, and can stand for
the path in whatever is joined to it. A way up from it never leads above the root. -/
theorem ofPath?_canonical {workDir : Path} (hwork : workDir.isAbsolute = true) (hp : p.text ≠ "") :
    ∃ l, ofPath? (ofAbsolute workDir) p = some l ∧
      (Path.absolute? workDir p).map ofAbsolute = some l ∧
      (l.path.isAbsolute = true ∧ l.path.components = .root :: l.names.map .name ∧
        l.path.segments = l.names ∧ ∀ s ∈ l.names, IsName s) ∧
      (∀ elsewhere, ofPath? elsewhere l.path = some l) ∧
      (∀ q, ofPath? (ofAbsolute workDir) (p.join q) =
        ofPath? (ofAbsolute workDir) (l.path.join q)) ∧
      ∀ n, ofPath? (ofAbsolute workDir) (ascend p n) =
        some ⟨l.names.take (l.names.length - n)⟩ := by
  obtain ⟨l, hl⟩ : ∃ l, ofPath? (ofAbsolute workDir) p = some l := ⟨_, ofPath?_of_ne hp⟩
  have hnames := isName_of_ofPath? (isName_ofAbsolute hwork) hl
  refine ⟨l, hl, (map_ofAbsolute_absolute? hwork p).trans hl, ?_, ofPath?_path hnames,
    ofPath?_join hnames hl, ofPath?_ascend hl⟩
  exact ⟨isAbsolute_path l, components_path hnames, segments_path_of_isName hnames, hnames⟩

/-- The general theorem for a path that leads up further than its working directory lies, which is
written with dots itself. -/
theorem ofPath?_canonical_roundabout :
    (⟨"//srv/./host/../run/"⟩ : Path).isAbsolute = true ∧
      ∃ l, ofPath? (ofAbsolute ⟨"//srv/./host/../run/"⟩) ⟨"./.././..//../lib//./a.jar/"⟩ = some l ∧
        l = ⟨["lib", "a.jar"]⟩ ∧ ∀ elsewhere, ofPath? elsewhere ⟨"/lib/a.jar"⟩ = some l := by
  have hwork : (⟨"//srv/./host/../run/"⟩ : Path).isAbsolute = true := by decide
  obtain ⟨l, hl, -, -, hagain, -, -⟩ := ofPath?_canonical
    (p := ⟨"./.././..//../lib//./a.jar/"⟩) hwork (by decide)
  have hvalue : ofPath? (ofAbsolute ⟨"//srv/./host/../run/"⟩) ⟨"./.././..//../lib//./a.jar/"⟩ =
      some ⟨["lib", "a.jar"]⟩ := by decide
  obtain rfl := Option.some.inj (hl.symm.trans hvalue)
  exact ⟨hwork, _, hl, rfl, hagain⟩

end Location

end RealmBoot
