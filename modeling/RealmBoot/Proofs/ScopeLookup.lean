import RealmBoot.Extension.Scope
import RealmBoot.Proofs.Growth

/-!
# What a Search Scope Answers

A scope reads the manifests of its archives at the first lookup and answers from them ever after.
What it finds under a short name is fixed by the files as they were at that time: the least of the
archives whose manifest gave the name.

## Main results

* `Scope.readIndex_eq_ok_iff`: reading succeeds exactly if every manifest can be read.
* `Scope.provider?_eq_some_iff`: the least archive with a short name provides it.
* `Scope.find_spec`: a lookup gives the provider, and freezes the scope.
-/

namespace RealmBoot

/-- The short name an archive has in a file system, if its manifest can be read and has one. -/
def Location.shortNameIn (fs : FileSystem) (archive : Location) : Option String :=
  (Manifest.ofArchive fs archive).toOption.bind (·.shortName?)

/-- A manifest depends on nothing but the bytes of the archive. -/
theorem Manifest.ofArchive_congr {fs fs' : FileSystem} {archive : Location}
    (h : fs'.read archive.path = fs.read archive.path) :
    Manifest.ofArchive fs' archive = Manifest.ofArchive fs archive := by
  rw [Manifest.ofArchive, Manifest.ofArchive, h]

/-- An archive whose manifest can be read can be read. -/
theorem Manifest.exists_read {fs : FileSystem} {archive : Location} {m : Manifest}
    (h : Manifest.ofArchive fs archive = .ok m) : ∃ bytes, fs.read archive.path = .ok bytes := by
  cases hread : fs.read archive.path with
  | ok bytes => exact ⟨bytes, rfl⟩
  | error fault => simp [Manifest.ofArchive, hread] at h

namespace Scope

variable {s : Scope} {fs fs' : FileSystem} {archives : List Location} {index : ShortNameIndex}
  {name : String} {a : Location}

/-! ### The index -/

/-- The index of the short names that archives have in a file system. -/
def indexOf (fs : FileSystem) (archives : List Location) : ShortNameIndex :=
  Index.enterAll ∅ (archives.map fun a => (a, (a.shortNameIn fs).toList))

/-- **An index can be read into another exactly if every manifest can be read,** and enters the
short names into it one archive after the other. -/
theorem readInto_eq_ok_iff {start : ShortNameIndex} :
    readInto fs start archives = .ok index ↔
      (∀ a ∈ archives, ∃ m, Manifest.ofArchive fs a = .ok m) ∧
        index = start.enterAll (archives.map fun a => (a, (a.shortNameIn fs).toList)) := by
  induction archives generalizing start with
  | nil => simp [readInto, Index.enterAll, eq_comm]
  | cons archive rest ih =>
      rw [readInto, List.forall_mem_cons]
      cases hm : Manifest.ofArchive fs archive with
      | error e => simp
      | ok m =>
          have hname : archive.shortNameIn fs = m.shortName? := by
            simp [Location.shortNameIn, hm, Except.toOption]
          dsimp only
          rw [ih, List.map_cons, hname]
          exact and_congr_left fun _ => (and_iff_right ⟨m, rfl⟩).symm

/-- **Reading an index succeeds exactly if every manifest can be read.** -/
theorem readIndex_eq_ok_iff :
    readIndex fs archives = .ok index ↔
      (∀ a ∈ archives, ∃ m, Manifest.ofArchive fs a = .ok m) ∧ index = indexOf fs archives :=
  readInto_eq_ok_iff

/-- Reading an index depends on nothing but the bytes of the archives. -/
theorem readIndex_congr (h : ∀ a ∈ archives, fs'.read a.path = fs.read a.path) :
    readIndex fs' archives = readIndex fs archives := by
  rw [readIndex, readIndex]
  generalize (∅ : ShortNameIndex) = start
  induction archives generalizing start with
  | nil => rfl
  | cons archive rest ih =>
      obtain ⟨harchive, hrest⟩ := List.forall_mem_cons.mp h
      rw [readInto, readInto, Manifest.ofArchive_congr harchive]
      cases Manifest.ofArchive fs archive with
      | error e => rfl
      | ok m => exact ih hrest _

/-! ### Lookups -/

/-- The archive that provides a short name: the first that had it in the given files. -/
def provider? (s : Scope) (seen : FileSystem) (name : String) : Option Location :=
  s.archives.toList.find? (·.shortNameIn seen = some name)

/-- An archive is the least of those in a scope that had a short name in the given files. -/
def Provides (s : Scope) (seen : FileSystem) (a : Location) (name : String) : Prop :=
  (a ∈ s.archives ∧ a.shortNameIn seen = some name) ∧
    ∀ b ∈ s.archives, b.shortNameIn seen = some name → ¬ b < a

/-- **The least archive with a short name provides it.** -/
theorem provider?_eq_some_iff : s.provider? fs name = some a ↔ s.Provides fs a name := by
  have hsorted : (s.archives.toList.map id).Pairwise (· < ·) := by
    rw [List.map_id]
    exact s.archives.sorted
  rw [provider?, Provides]
  rw [OrderedSet.find?_eq_some_iff_least hsorted]
  simp only [decide_eq_true_eq, id, OrderedSet.mem_def]

/-- Whether some archive of a scope had a short name in the given files. -/
def knows (s : Scope) (seen : FileSystem) (name : String) : Bool :=
  s.archives.toList.any (·.shortNameIn seen = some name)

/-- A scope knows the names that its archives declare. -/
theorem knows_iff : s.knows fs name = true ↔ ∃ a ∈ s.archives, a.shortNameIn fs = some name := by
  simp [knows, OrderedSet.mem_def]

/-- It knows a name if some archive provides it. -/
theorem knows_eq_isSome_provider? : s.knows fs name = (s.provider? fs name).isSome := by
  rw [Bool.eq_iff_iff, provider?, List.find?_isSome, knows, List.any_eq_true]

/-- A lookup among the short names of archives finds the first archive that has the name. -/
theorem lookup_indexOf_eq_find? (fs : FileSystem) (archives : List Location) (name : String) :
    lookup (indexOf fs archives) name = archives.find? (·.shortNameIn fs = some name) := by
  rw [lookup, indexOf, Index.get?_enterAll, Index.get?_empty, Option.none_or, List.find?_map,
    Option.map_map]
  simp only [Function.comp_def, Option.mem_toList, Option.map_id']

/-- A lookup in the index of a scope finds the provider. -/
theorem lookup_indexOf (s : Scope) (seen : FileSystem) (name : String) :
    lookup (indexOf seen s.archives.toList) name = s.provider? seen name :=
  lookup_indexOf_eq_find? seen s.archives.toList name

/-- A scope answers from an index: it is frozen with it, or would read it in the given files. -/
def Answers (s : Scope) (fs : FileSystem) (index : ShortNameIndex) : Prop :=
  s.index? = some index ∨ s.index? = none ∧ readIndex fs s.archives.toList = .ok index

/-- **A lookup answers from the index, and freezes the scope with it.** -/
theorem find_spec (h : s.Answers fs index) :
    s.find fs name = (.ok (lookup index name), { s with index? := some index }) := by
  rw [find]
  rcases h with hfrozen | ⟨hfresh, hread⟩
  · obtain ⟨roots, archives, index?⟩ := s
    subst hfrozen
    rfl
  · rw [hfresh, hread]

/-- A lookup either answers from an index and freezes the scope with it, or fails to read one and
leaves the scope as it is. -/
theorem find_cases (s : Scope) (fs : FileSystem) (name : String) :
    (∃ index, s.Answers fs index ∧
      s.find fs name = (.ok (lookup index name), { s with index? := some index })) ∨
      s.index? = none ∧ ∃ e, readIndex fs s.archives.toList = .error e ∧
        s.find fs name = (.error e, s) := by
  cases hindex : s.index? with
  | some index => exact .inl ⟨index, .inl hindex, find_spec (.inl hindex)⟩
  | none =>
      cases hread : readIndex fs s.archives.toList with
      | ok index => exact .inl ⟨index, .inr ⟨hindex, hread⟩, find_spec (.inr ⟨hindex, hread⟩)⟩
      | error e =>
          refine .inr ⟨rfl, e, rfl, ?_⟩
          rw [find, hindex]
          dsimp only
          rw [hread]

/-- A frozen scope answers from its index only. -/
theorem Answers.eq_of_frozen {frozen : ShortNameIndex} (h : s.Answers fs index)
    (hfrozen : s.index? = some frozen) : frozen = index := by
  rcases h with h | ⟨hfresh, -⟩
  · exact Option.some.inj (hfrozen.symm.trans h)
  · rw [hfresh] at hfrozen
    cases hfrozen

/-- A scope answers from one index. -/
theorem Answers.unique {index' : ShortNameIndex} (h : s.Answers fs index)
    (h' : s.Answers fs index') :
    index = index' := by
  rcases h with hfrozen | ⟨hfresh, hread⟩
  · exact h'.eq_of_frozen hfrozen
  · rcases h' with hfrozen' | ⟨-, hread'⟩
    · rw [hfresh] at hfrozen'
      cases hfrozen'
    · exact Except.ok.inj (hread.symm.trans hread')

/-- What is looked up is an archive that was read. -/
theorem mem_of_lookup (h : lookup (indexOf fs archives) name = some a) : a ∈ archives :=
  List.mem_of_find?_eq_some ((lookup_indexOf_eq_find? fs archives name).symm.trans h)

/-- The files a scope answers from: those at hand as long as it has read nothing, and else those in
which it read its manifests. -/
structure AnswersFrom (s : Scope) (now seen : FileSystem) : Prop where
  fresh : s.index? = none → seen = now
  frozen : ∀ index, s.index? = some index → readIndex seen s.archives.toList = .ok index

/-- A scope whose manifests can be read answers from their short names, also after growth that
wrote nothing. -/
theorem AnswersFrom.answers {now seen grown : FileSystem} (h : s.AnswersFrom now seen)
    (hreadable : ∀ a ∈ s.archives, ∃ m, Manifest.ofArchive seen a = .ok m)
    (hgrown : FileSystem.Grows (fun _ => False) now grown) :
    s.Answers grown (indexOf seen s.archives.toList) := by
  cases hindex : s.index? with
  | some index =>
      obtain ⟨-, rfl⟩ := readIndex_eq_ok_iff.mp (h.frozen index hindex)
      exact .inl hindex
  | none =>
      obtain rfl := h.fresh hindex
      have hread : ∀ a ∈ s.archives.toList, grown.read a.path = seen.read a.path := by
        intro a ha
        obtain ⟨m, hm⟩ := hreadable a ha
        obtain ⟨bytes, hbytes⟩ := Manifest.exists_read hm
        rw [hbytes]
        exact hgrown.read hbytes fun _ _ => not_false
      refine .inr ⟨hindex, ?_⟩
      rw [readIndex_congr hread]
      exact readIndex_eq_ok_iff.mpr ⟨hreadable, rfl⟩

end Scope

end RealmBoot
