import Mathlib.Control.Monad.Basic
import RealmBoot.Proofs.ScopeLookup

/-!
# A Scope Freezes at Its First Answer

A search scope reads manifests at a lookup, and keeps what it has read only if it could read them
all. So while the files change between lookups, a lookup that fails leaves the scope as it was made,
and tells what is wrong at that moment. The first lookup that succeeds fixes what all later ones
answer, whatever becomes of the files. Nothing depends on the order in which the archives of the
scope were given, or on how often they were.

## Main results

* `Scope.find_error_iff`: when a lookup in a scope that has read nothing fails, and how.
* `Scope.answers_of_fresh`, `Scope.answers_of_frozen`: the lookups of a run up to the first that
  succeeds, and those after it.
* `Scope.frozen_at_first_answer`: every run of changes and lookups.
-/

namespace RealmBoot

/-- An archive declares a short name in a file system: its manifest can be read and has the
attribute, whose value without the blanks around it is that name. An empty name is none. -/
def Location.DeclaresIn (fs : FileSystem) (a : Location) (name : String) : Prop :=
  ∃ m value, Manifest.ofArchive fs a = .ok m ∧ m.get? "Short-Name" = some value ∧
    Text.trim value = name ∧ name ≠ ""

/-- The short name that is read off an archive is the one it declares. -/
theorem Location.shortNameIn_eq_some_iff {fs : FileSystem} {a : Location} {name : String} :
    a.shortNameIn fs = some name ↔ a.DeclaresIn fs name := by
  rw [shortNameIn, DeclaresIn]
  cases hm : Manifest.ofArchive fs a with
  | error e => simp [Except.toOption]
  | ok m =>
      cases hvalue : m.get? "Short-Name" with
      | none => simp [Except.toOption, Manifest.shortName?, hvalue]
      | some value =>
          simp only [Except.toOption, Option.bind_some, Manifest.shortName?, hvalue,
            Option.map_some, Option.filter_eq_some_iff, Option.some.injEq]
          constructor
          · rintro ⟨rfl, hne⟩
            exact ⟨m, value, rfl, hvalue, rfl, by simpa using hne⟩
          · rintro ⟨m', value', heq, hvalue', rfl, hne⟩
            cases heq
            rw [hvalue] at hvalue'
            cases hvalue'
            exact ⟨rfl, by simpa using hne⟩

/-- What happens around a scope. -/
inductive ScopeEvent where
  /-- The files change, and are as given from now on. -/
  | change (files : FileSystem)
  /-- A short name is looked up. -/
  | find (name : String)

/-- A lookup that was made. -/
structure Answered where
  /-- The files as they were then. -/
  files : FileSystem
  /-- The short name. -/
  name : String
  /-- What came of it. -/
  answer : Except DiscoveryError (Option Location)

/-- A lookup succeeds if it does not end in an error. -/
def Answered.Succeeds (c : Answered) : Prop := ∃ found?, c.answer = .ok found?

namespace Scope

/-- The lookups of a run, which starts with the given files. -/
def answers (s : Scope) (fs : FileSystem) : List ScopeEvent → List Answered
  | [] => []
  | .change fs :: events => s.answers fs events
  | .find name :: events =>
    ⟨fs, name, (s.find fs name).1⟩ :: (s.find fs name).2.answers fs events

/-- A scope is made of given archives, or of those that a scanner finds in given directories. -/
inductive Made : (members : Location → Prop) → Scope → Prop
  | ofArchives (archives : List Location) : Made (· ∈ archives) (ofArchives archives)
  | scan {scanner : Scanner} {fs : FileSystem} {roots : List Path} {s : Scope} :
      scan scanner fs roots = .ok s →
      Made (fun a => ∃ root ∈ roots, ∃ found, scanner.scanAll fs root = .ok found ∧ a ∈ found) s

/-- Of some archives, the least that declares a short name. -/
def LeastDeclaring (members : Location → Prop) (fs : FileSystem) (name : String) (a : Location) :
    Prop :=
  (members a ∧ a.DeclaresIn fs name) ∧ ∀ b, members b → b.DeclaresIn fs name → ¬ b < a

/-- Of some archives, the least whose manifest cannot be read fails with an error. -/
def FirstFault (members : Location → Prop) (fs : FileSystem) (e : DiscoveryError) : Prop :=
  ∃ a, members a ∧ Manifest.ofArchive fs a = .error e ∧
    ∀ b, members b → b < a → ∃ m, Manifest.ofArchive fs b = .ok m

variable {s s' : Scope} {fs : FileSystem} {name : String} {members : Location → Prop}
  {archives : List Location} {e : DiscoveryError} {events : List ScopeEvent} {a : Location}

/-! ### Making a scope -/

/-- What is found below several roots is what is found below one of them. -/
theorem mem_scanRoots {scanner : Scanner} {roots : List Path} {found : OrderedSet Location}
    (h : scanRoots scanner fs roots = .ok found) :
    a ∈ found ↔ ∃ root ∈ roots, ∃ part, scanner.scanAll fs root = .ok part ∧ a ∈ part := by
  induction roots generalizing found with
  | nil =>
      cases h
      simp [OrderedSet.mem_def, EmptyCollection.emptyCollection]
  | cons root roots ih =>
      rw [scanRoots] at h
      cases hroot : scanner.scanAll fs root with
      | error e => simp [hroot] at h
      | ok part =>
          rw [hroot] at h
          obtain ⟨rest, hrest, rfl⟩ := except_map_eq_ok_iff.mp h
          simp [ih hrest, hroot]

/-- A scope that was made has read nothing, and its archives are those it was made of. -/
theorem Made.spec (h : Made members s) : s.index? = none ∧ ∀ a, a ∈ s.archives ↔ members a := by
  cases h with
  | ofArchives archives => exact ⟨rfl, fun a => OrderedSet.mem_ofList⟩
  | scan hscan =>
      obtain ⟨archives, harchives, rfl⟩ := except_map_eq_ok_iff.mp hscan
      exact ⟨rfl, fun a => mem_scanRoots harchives⟩

/-! ### One lookup -/

/-- What is wrong with the manifest of an archive, if it cannot be read. -/
def fault? (fs : FileSystem) (a : Location) : Option DiscoveryError :=
  match Manifest.ofArchive fs a with
  | .error e => some e
  | .ok _ => none

/-- The fault of an archive is the error its manifest gives. -/
theorem fault?_eq_some_iff : fault? fs a = some e ↔ Manifest.ofArchive fs a = .error e := by
  rw [fault?]
  cases Manifest.ofArchive fs a <;> simp

/-- An archive without a fault has a manifest. -/
theorem fault?_eq_none_iff : fault? fs a = none ↔ ∃ m, Manifest.ofArchive fs a = .ok m := by
  rw [fault?]
  cases Manifest.ofArchive fs a <;> simp

/-- **Reading stops at the first manifest that cannot be read.** -/
theorem readIndex_eq_error_iff :
    readIndex fs archives = .error e ↔ archives.findSome? (fault? fs) = some e := by
  rw [readIndex]
  generalize (∅ : ShortNameIndex) = start
  induction archives generalizing start with
  | nil => simp [readInto]
  | cons archive rest ih =>
      rw [readInto, List.findSome?_cons, fault?]
      cases Manifest.ofArchive fs archive with
      | error e' => simp
      | ok m => exact ih _

/-- As the archives increase, the first fault is that of the least archive. -/
theorem readIndex_error_iff_firstFault (hmembers : ∀ a, a ∈ s.archives ↔ members a) :
    readIndex fs s.archives.toList = .error e ↔ FirstFault members fs e := by
  rw [readIndex_eq_error_iff, List.findSome?_eq_some_iff, FirstFault]
  simp only [← hmembers, OrderedSet.mem_def, fault?_eq_some_iff, fault?_eq_none_iff]
  have hsorted := s.archives.sorted
  constructor
  · rintro ⟨before, a, after, hsplit, ha, hbefore⟩
    refine ⟨a, by simp [hsplit], ha, fun b hb hlt => hbefore b ?_⟩
    rw [hsplit, List.pairwise_append, List.pairwise_cons] at hsorted
    rw [hsplit, List.mem_append, List.mem_cons] at hb
    rcases hb with hb | rfl | hb
    · exact hb
    · exact absurd hlt (StrictOrder.irrefl b)
    · exact absurd (StrictOrder.trans hlt (hsorted.2.1.1 b hb)) (StrictOrder.irrefl b)
  · rintro ⟨a, ha, hfails, hless⟩
    obtain ⟨before, after, hsplit⟩ := List.append_of_mem ha
    rw [hsplit, List.pairwise_append] at hsorted
    exact ⟨before, a, after, hsplit, hfails, fun b hb =>
      hless b (by simp [hsplit, hb]) (hsorted.2.2 b hb a List.mem_cons_self)⟩

/-- **A lookup in a scope that has read nothing** fails exactly if some manifest cannot be read, and
with the first such fault. -/
theorem find_error_iff (hfresh : s.index? = none) (hmembers : ∀ a, a ∈ s.archives ↔ members a) :
    (s.find fs name).1 = .error e ↔ FirstFault members fs e := by
  rw [← readIndex_error_iff_firstFault hmembers, find, hfresh]
  dsimp only
  cases readIndex fs s.archives.toList <;> simp

/-- A lookup that fails leaves the scope untouched. -/
theorem find_of_error (h : (s.find fs name).1 = .error e) : (s.find fs name).2 = s := by
  rcases s.find_cases fs name with ⟨index, -, hfind⟩ | ⟨-, e', -, hfind⟩
  · rw [hfind] at h
    cases h
  · rw [hfind]

/-- A lookup that succeeds in a scope that has read nothing freezes it with the short names of that
moment. -/
theorem find_of_ok (hfresh : s.index? = none) {found? : Option Location}
    (h : (s.find fs name).1 = .ok found?) :
    found? = lookup (indexOf fs s.archives.toList) name ∧
      (s.find fs name).2.index? = some (indexOf fs s.archives.toList) := by
  rcases s.find_cases fs name with ⟨index, hanswers, hfind⟩ | ⟨-, e', -, hfind⟩
  · rcases hanswers with hfrozen | ⟨-, hread⟩
    · rw [hfresh] at hfrozen
      cases hfrozen
    · obtain ⟨-, rfl⟩ := readIndex_eq_ok_iff.mp hread
      rw [hfind] at h ⊢
      exact ⟨(Except.ok.inj h).symm, rfl⟩
  · rw [hfind] at h
    cases h

/-- What is looked up among the short names of a moment is the least archive that declared the name
then. -/
theorem lookup_indexOf_spec (hmembers : ∀ a, a ∈ s.archives ↔ members a) :
    (∀ a, lookup (indexOf fs s.archives.toList) name = some a ↔
        LeastDeclaring members fs name a) ∧
      (lookup (indexOf fs s.archives.toList) name = none ↔
        ∀ a, members a → ¬ a.DeclaresIn fs name) := by
  rw [lookup_indexOf]
  refine ⟨fun a => ?_, ?_⟩
  · rw [provider?_eq_some_iff, Provides, LeastDeclaring]
    simp only [hmembers, Location.shortNameIn_eq_some_iff]
  · rw [← Option.not_isSome_iff_eq_none, ← knows_eq_isSome_provider?, knows_iff]
    simp only [hmembers, Location.shortNameIn_eq_some_iff, not_exists, not_and]

/-! ### Runs -/

/-- **A frozen scope answers from its index,** whatever becomes of the files. -/
theorem answers_of_frozen {index : ShortNameIndex} (h : s.index? = some index) :
    ∀ c ∈ s.answers fs events, c.answer = .ok (lookup index c.name) := by
  induction events generalizing fs with
  | nil => simp [answers]
  | cons event events ih =>
      cases event with
      | change fs' => exact ih
      | find name =>
          have hfind : s.find fs name = (.ok (lookup index name), s) := by rw [find, h]
          rw [answers, hfind, List.forall_mem_cons]
          exact ⟨rfl, ih⟩

/-- **As long as no lookup has succeeded,** a lookup is one in the scope as it was made, with the
files of that moment, and the run goes on from what it leaves. A lookup that has failed has changed
nothing. -/
theorem answers_of_fresh {before after : List Answered} {c : Answered}
    (h : s.answers fs events = before ++ c :: after) (hbefore : ∀ b ∈ before, ¬ b.Succeeds) :
    c.answer = (s.find c.files c.name).1 ∧
      ∃ rest, after = (s.find c.files c.name).2.answers c.files rest := by
  induction events generalizing fs before with
  | nil => simp [answers] at h
  | cons event events ih =>
      cases event with
      | change fs' => exact ih h hbefore
      | find name =>
          rw [answers] at h
          cases before with
          | nil =>
              cases h
              exact ⟨rfl, events, rfl⟩
          | cons b before =>
              obtain ⟨rfl, hrest⟩ := List.cons.inj h
              rw [List.forall_mem_cons] at hbefore
              have hsame : (s.find fs name).2 = s := by
                cases hanswer : (s.find fs name).1 with
                | ok found? => exact absurd ⟨found?, hanswer⟩ hbefore.1
                | error e => exact find_of_error hanswer
              rw [hsame] at hrest
              exact ih hrest hbefore.2

/-- Scopes with the same archives that have read the same answer alike. -/
theorem answers_congr (harchives : s'.archives = s.archives) (hindex : s'.index? = s.index?) :
    s'.answers fs events = s.answers fs events := by
  induction events generalizing fs s s' with
  | nil => rfl
  | cons event events ih =>
      cases event with
      | change fs' => exact ih harchives hindex
      | find name =>
          have hfind : (s'.find fs name).1 = (s.find fs name).1 ∧
              (s'.find fs name).2.archives = (s.find fs name).2.archives ∧
              (s'.find fs name).2.index? = (s.find fs name).2.index? := by
            simp only [find, harchives, hindex]
            split
            · exact ⟨rfl, harchives, hindex⟩
            · split
              · exact ⟨rfl, harchives, hindex⟩
              · exact ⟨rfl, rfl, rfl⟩
          obtain ⟨hanswer, harchives', hindex'⟩ := hfind
          rw [answers, answers, hanswer, ih harchives' hindex']

/-- **A scope freezes at its first answer.** Let the files change between lookups in whatever way.
As long as no lookup has succeeded, one fails exactly if some manifest cannot be read at that
moment, and with the fault of the least such archive. From the first lookup that succeeds on, every
lookup succeeds, and gives the least archive that declared the name in the files of that first
moment, or none if none did. A lookup that fails leaves the scope untouched, and scopes made of the
same archives answer alike, in whatever order and however often these were given. -/
theorem frozen_at_first_answer (h : Made members s) (fs : FileSystem) (events : List ScopeEvent) :
    (∀ before c after, s.answers fs events = before ++ c :: after →
      (∀ b ∈ before, ¬ b.Succeeds) → ∀ e, c.answer = .error e ↔ FirstFault members c.files e) ∧
    (∀ before first after, s.answers fs events = before ++ first :: after →
      (∀ b ∈ before, ¬ b.Succeeds) → first.Succeeds →
      ∀ c ∈ first :: after, ∃ found?, c.answer = .ok found? ∧
        (∀ a, found? = some a ↔ LeastDeclaring members first.files c.name a) ∧
        (found? = none ↔ ∀ a, members a → ¬ a.DeclaresIn first.files c.name)) ∧
    (∀ (scope : Scope) now name e,
      (scope.find now name).1 = .error e → (scope.find now name).2 = scope) ∧
    ∀ s' members', Made members' s' → (∀ a, members' a ↔ members a) →
      s'.answers fs events = s.answers fs events := by
  obtain ⟨hfresh, hmembers⟩ := h.spec
  refine ⟨fun before c after hsplit hbefore e => ?_,
    fun before first after hsplit hbefore hfirst => ?_,
    fun scope now name e => find_of_error, fun s' members' h' hsame => ?_⟩
  · rw [(answers_of_fresh hsplit hbefore).1, find_error_iff hfresh hmembers]
  · obtain ⟨hanswer, rest, rfl⟩ := answers_of_fresh hsplit hbefore
    obtain ⟨found?, hfound⟩ := hfirst
    obtain ⟨hlookup, hfrozen⟩ := find_of_ok hfresh (hanswer.symm.trans hfound)
    have hall : ∀ c ∈ first :: (s.find first.files first.name).2.answers first.files rest,
        c.answer = .ok (lookup (indexOf first.files s.archives.toList) c.name) :=
      List.forall_mem_cons.mpr ⟨by rw [hfound, hlookup], answers_of_frozen hfrozen⟩
    exact fun c hc => ⟨_, hall c hc, lookup_indexOf_spec hmembers⟩
  · obtain ⟨hfresh', hmembers'⟩ := h'.spec
    refine answers_congr (OrderedSet.ext fun a => ?_) (hfresh'.trans hfresh.symm)
    rw [hmembers, hmembers', hsame]

/-! ### A manifest that is mended -/

/-- Two archives of one short name, the manifest of the greater one being as given. -/
def pairedModules (manifest : String) : FileSystem :=
  { root := [
      ("a.jpi", .file "Short-Name: x\n".toUTF8 (.at 0)),
      ("b.jpi", .file manifest.toUTF8 (.at 0))] }

/-- The two archives, the greater one given first. -/
def pairedScope : Scope := ofArchives [⟨["b.jpi"]⟩, ⟨["a.jpi"]⟩]

/-- The short name is looked up while that manifest is none, after it has been mended, and again
when no files are left. -/
def mendingEvents : List ScopeEvent :=
  [.find "x", .change (pairedModules "Short-Name: x\n"), .find "x", .change { root := [] },
    .find "x"]

/-- The first lookup fails. The second one finds the lesser archive, and so does the third, although
its files are gone. -/
theorem frozen_at_first_answer_mended :
    ∃ c₁ c₂ c₃, pairedScope.answers (pairedModules "none\n") mendingEvents = [c₁, c₂, c₃] ∧
      c₁.answer = .error (.manifest ⟨["b.jpi"]⟩ (.malformedLine 1)) ∧
      c₂.answer = .ok (some ⟨["a.jpi"]⟩) ∧
      c₃.files.root = [] ∧ c₃.answer = .ok (some ⟨["a.jpi"]⟩) := by
  let left := (pairedScope.find (pairedModules "none\n") "x").2
  let frozen := (left.find (pairedModules "Short-Name: x\n") "x").2
  have hfails : (pairedScope.find (pairedModules "none\n") "x").1 =
      .error (.manifest ⟨["b.jpi"]⟩ (.malformedLine 1)) := by decide
  have hmended : (left.find (pairedModules "Short-Name: x\n") "x").1 = .ok (some ⟨["a.jpi"]⟩) := by
    decide
  have hfirst : ¬ Answered.Succeeds ⟨pairedModules "none\n", "x",
      (pairedScope.find (pairedModules "none\n") "x").1⟩ := by
    rintro ⟨found?, h⟩
    rw [hfails] at h
    cases h
  obtain ⟨-, hfrozen, -⟩ := frozen_at_first_answer (.ofArchives [⟨["b.jpi"]⟩, ⟨["a.jpi"]⟩])
    (pairedModules "none\n") mendingEvents
  have hlater := hfrozen [⟨pairedModules "none\n", "x", _⟩]
    ⟨pairedModules "Short-Name: x\n", "x", (left.find (pairedModules "Short-Name: x\n") "x").1⟩
    [⟨{ root := [] }, "x", (frozen.find { root := [] } "x").1⟩] rfl
    (List.forall_mem_singleton.mpr hfirst) ⟨_, hmended⟩
  simp only [List.forall_mem_cons, hmended] at hlater
  obtain ⟨⟨found?, hfound, hleast, -⟩, ⟨found?', hfound', hleast', -⟩, -⟩ := hlater
  refine ⟨_, _, _, rfl, hfails, hmended, rfl, ?_⟩
  rw [hfound', (hleast' _).mpr ((hleast _).mp (Except.ok.inj hfound).symm)]

end Scope

end RealmBoot
