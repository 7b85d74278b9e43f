import Mathlib.Tactic.SplitIfs
import RealmBoot.Extension.Installation
import RealmBoot.Proofs.ScopeLookup

/-!
# What an Installation Accounts For

A batch declares what its modules need, and each declaration is met by the batch, by an archive of
the scope, or by nothing. Which of these it is does not depend on the course of the installation.
This module says so of single declarations, and says what a report has to hold to account for a
list of them.

## Main results

* `Installation.unmet_iff`: which declarations cannot be met.
* `Installation.Accounts`: what a report holds after some archives and declarations.
* `Installation.Accounts.settled_step`, `Installation.Accounts.fetched_step`,
  `Installation.Accounts.skipped_step`: what one more declaration adds to a report.
-/

namespace RealmBoot

namespace Installation

/-! ### What a batch asks for -/

/-- The declarations of a batch, each with the name of the module that makes it. -/
def declared (batch : List Descriptor) : List (Dependency × String) :=
  batch.flatMap fun d => d.dependencies.map (·, d.shortName)

/-- The archive of the batch a step installs. -/
@[simp] def Step.own? : Step → Option Descriptor
  | .own d => some d
  | .declared .. => none

/-- The declaration a step sees to. -/
@[simp] def Step.declared? : Step → Option (Dependency × String)
  | .own _ => none
  | .declared dependency requiredBy => some (dependency, requiredBy)

/-- The modules that the steps place for themselves are the batch. -/
theorem filterMap_own_steps (batch : List Descriptor) :
    (steps batch).filterMap Step.own? = batch := by
  induction batch with
  | nil => rfl
  | cons d batch ih =>
      have hnone : (d.dependencies.map (Step.declared · d.shortName)).filterMap Step.own? = [] := by
        simp [List.filterMap_map, Function.comp_def, Step.own?]
      rw [steps] at ih ⊢
      rw [List.flatMap_cons, List.filterMap_append, ih, List.filterMap_cons, hnone]
      rfl

/-- The dependencies that the steps declare are those of the batch. -/
theorem filterMap_declared_steps (batch : List Descriptor) :
    (steps batch).filterMap Step.declared? = declared batch := by
  induction batch with
  | nil => rfl
  | cons d batch ih =>
      have hall : (d.dependencies.map (Step.declared · d.shortName)).filterMap Step.declared? =
          d.dependencies.map (·, d.shortName) := by
        simp [List.filterMap_map, Function.comp_def, Step.declared?]
      rw [steps, declared] at ih ⊢
      rw [List.flatMap_cons, List.filterMap_append, ih, List.filterMap_cons, hall]
      rfl

variable (target : Path) (names : List String) (scope : Scope) (seen : FileSystem)

/-- A name is neither in the batch nor in the scope. -/
def nowhere (name : String) : Bool := !names.contains name && !scope.knows seen name

/-- A name is not in the batch, but in the scope. -/
def fetched (name : String) : Bool := !names.contains name && scope.knows seen name

/-- A declaration cannot be met: it is required, and found nowhere. -/
def unmet (declaration : Dependency × String) : Bool :=
  !declaration.1.optional && nowhere names scope seen declaration.1.name

/-- The names that come from the scope, each where it is first declared. -/
def fetchedNames (declarations : List (Dependency × String)) : List String :=
  ((declarations.map (·.1.name)).filter (fetched names scope seen)).eraseDups

/-- The optional declarations that are found nowhere. -/
def spared (declarations : List (Dependency × String)) : List Dependency :=
  (declarations.map (·.1)).filter fun d => d.optional && nowhere names scope seen d.name

/-- A report accounts for the archives of the batch installed so far, and for the declarations seen
to so far. -/
structure Accounts (own : List Descriptor) (declarations : List (Dependency × String))
    (report : InstallationReport) : Prop where
  /-- The archives are listed in order, with where they came from and went to. -/
  batch : report.batch.map (fun i => (i.name, i.source, i.target)) =
    own.map fun d => (d.shortName, d.archive.path, ownTarget target d.shortName)
  /-- The names that come from the scope are listed. -/
  dependencies : report.dependencies.map (·.name) = fetchedNames names scope seen declarations
  /-- Each of them comes from the archive that provides it. -/
  provided : ∀ i ∈ report.dependencies, ∃ a, scope.Provides seen a i.name ∧
    i.source = a.path ∧ i.target = dependencyTarget target i.name
  /-- The optional declarations found nowhere are listed. -/
  skipped : report.skipped = spared names scope seen declarations

/-! ### What one declaration adds -/

variable {target names scope seen}
variable {own : List Descriptor} {declarations : List (Dependency × String)}
  {report : InstallationReport} {declaration : Dependency × String}

/-- A name is fetched if the batch does not have it and the scope does. -/
theorem fetched_iff {name : String} :
    fetched names scope seen name = true ↔ name ∉ names ∧ scope.knows seen name = true := by
  simp [fetched]

/-- A name is nowhere if neither of them has it. -/
theorem nowhere_iff {name : String} :
    nowhere names scope seen name = true ↔ name ∉ names ∧ scope.knows seen name = false := by
  simp [nowhere]

/-- A declaration cannot be met exactly if it is required, and neither a module of the batch nor an
archive of the scope has the name. -/
theorem unmet_iff {batch : List Descriptor} :
    unmet (batch.map (·.shortName)) scope seen declaration = true ↔
      declaration.1.optional = false ∧ (∀ d ∈ batch, d.shortName ≠ declaration.1.name) ∧
        ∀ a ∈ scope.archives, a.shortNameIn seen ≠ some declaration.1.name := by
  rw [unmet, Bool.and_eq_true, nowhere_iff, ← Bool.not_eq_true (scope.knows _ _), Scope.knows_iff]
  simp

/-- What is declared is declared by a module of the batch. -/
theorem mem_declared {batch : List Descriptor} :
    declaration ∈ declared batch ↔
      ∃ d ∈ batch, declaration.1 ∈ d.dependencies ∧ d.shortName = declaration.2 := by
  obtain ⟨dependency, requiredBy⟩ := declaration
  simp only [declared, List.mem_flatMap, List.mem_map, Prod.mk.injEq]
  constructor
  · rintro ⟨d, hd, _, hmem, rfl, rfl⟩
    exact ⟨d, hd, hmem, rfl⟩
  · rintro ⟨d, hd, hmem, rfl⟩
    exact ⟨d, hd, dependency, hmem, rfl, rfl⟩

/-- The names fetched are the declared ones that can be fetched. -/
theorem mem_fetchedNames {name : String} :
    name ∈ fetchedNames names scope seen declarations ↔
      (∃ d ∈ declarations, d.1.name = name) ∧ fetched names scope seen name = true := by
  rw [fetchedNames, List.mem_eraseDups, List.mem_filter, List.mem_map]

/-- One more declaration adds its name if it is to be fetched and was not declared before. -/
theorem fetchedNames_concat :
    fetchedNames names scope seen (declarations ++ [declaration]) =
      if fetched names scope seen declaration.1.name = true ∧
          declaration.1.name ∉ fetchedNames names scope seen declarations then
        fetchedNames names scope seen declarations ++ [declaration.1.name]
      else fetchedNames names scope seen declarations := by
  simp only [fetchedNames, List.map_append, List.filter_append, List.eraseDups_append,
    List.mem_eraseDups]
  generalize (declarations.map (·.1.name)).filter (fetched names scope seen) = before
  cases hfetched : fetched names scope seen declaration.1.name with
  | false => simp [hfetched]
  | true =>
      by_cases hmem : declaration.1.name ∈ before
      · simp [hfetched, hmem, List.removeAll]
      · simp [hfetched, hmem, List.removeAll, List.eraseDups_cons]

/-- One more declaration is added if it is optional and found nowhere. -/
theorem spared_concat :
    spared names scope seen (declarations ++ [declaration]) =
      if (declaration.1.optional && nowhere names scope seen declaration.1.name) = true then
        spared names scope seen declarations ++ [declaration.1]
      else spared names scope seen declarations := by
  rw [spared, spared, List.map_append, List.filter_append]
  split_ifs with hskip
  · simp [hskip]
  · simp only [Bool.not_eq_true] at hskip
    simp [hskip]

namespace Accounts

/-- An empty report accounts for no steps. -/
theorem nil : Accounts target names scope seen [] [] {} where
  batch := rfl
  dependencies := rfl
  provided := by simp
  skipped := rfl

/-- An archive of the batch is added to those before it. -/
theorem own_step (h : Accounts target names scope seen own declarations report) (d : Descriptor)
    (upToDate : Bool) :
    Accounts target names scope seen (own ++ [d]) declarations
      { report with batch := report.batch ++
          [⟨d.shortName, d.archive.path, ownTarget target d.shortName, upToDate⟩] } where
  batch := by simp [h.batch]
  dependencies := h.dependencies
  provided := h.provided
  skipped := h.skipped

/-- A name is settled if it is in the batch or was fetched before. -/
theorem settled_iff (h : Accounts target names scope seen own declarations report) (name : String) :
    settled names report name = true ↔
      name ∈ names ∨ name ∈ fetchedNames names scope seen declarations := by
  simp only [settled, Bool.or_eq_true, List.contains_iff_mem, h.dependencies]

/-- A settled name is found somewhere. -/
theorem not_nowhere_of_settled (h : Accounts target names scope seen own declarations report)
    {name : String} (hs : settled names report name = true) :
    nowhere names scope seen name = false := by
  rw [← Bool.not_eq_true, nowhere_iff]
  rintro ⟨hnames, hknows⟩
  rcases (h.settled_iff name).mp hs with hmem | hmem
  · exact hnames hmem
  · obtain ⟨-, hfetched⟩ := mem_fetchedNames.mp hmem
    rw [(fetched_iff.mp hfetched).2] at hknows
    cases hknows

/-- A declaration of a settled name adds nothing. -/
theorem settled_step (h : Accounts target names scope seen own declarations report)
    (hs : settled names report declaration.1.name = true) :
    Accounts target names scope seen own (declarations ++ [declaration]) report where
  batch := h.batch
  dependencies := by
    rw [h.dependencies, fetchedNames_concat, if_neg]
    rintro ⟨hfetched, hnew⟩
    rcases (h.settled_iff _).mp hs with hmem | hmem
    · exact (fetched_iff.mp hfetched).1 hmem
    · exact hnew hmem
  provided := h.provided
  skipped := by
    rw [h.skipped, spared_concat, if_neg]
    simp [h.not_nowhere_of_settled hs]

/-- A name that is not settled and that the scope provides is fetched. -/
theorem fetched_step (h : Accounts target names scope seen own declarations report)
    (hs : ¬ settled names report declaration.1.name = true) {a : Location}
    (ha : scope.provider? seen declaration.1.name = some a) (upToDate : Bool) :
    Accounts target names scope seen own (declarations ++ [declaration])
      { report with dependencies := report.dependencies ++
          [⟨declaration.1.name, a.path, dependencyTarget target declaration.1.name,
            upToDate⟩] } := by
  rw [h.settled_iff, not_or] at hs
  have hknows : scope.knows seen declaration.1.name = true := by
    rw [Scope.knows_eq_isSome_provider?, ha, Option.isSome_some]
  refine ⟨h.batch, ?_, ?_, ?_⟩
  · rw [List.map_append, h.dependencies, fetchedNames_concat,
      if_pos ⟨fetched_iff.mpr ⟨hs.1, hknows⟩, hs.2⟩]
    rfl
  · intro i hi
    rcases List.mem_append.mp hi with hi | hi
    · exact h.provided i hi
    · rw [List.mem_singleton] at hi
      subst hi
      exact ⟨a, Scope.provider?_eq_some_iff.mp ha, rfl, rfl⟩
  · rw [h.skipped, spared_concat, if_neg]
    simp [nowhere, hknows]

/-- An optional declaration of a name that is found nowhere is skipped. -/
theorem skipped_step (h : Accounts target names scope seen own declarations report)
    (hnowhere : nowhere names scope seen declaration.1.name = true)
    (hoptional : declaration.1.optional = true) :
    Accounts target names scope seen own (declarations ++ [declaration])
      { report with skipped := report.skipped ++ [declaration.1] } where
  batch := h.batch
  dependencies := by
    rw [h.dependencies, fetchedNames_concat, if_neg]
    rintro ⟨hfetched, -⟩
    have hknows := (fetched_iff.mp hfetched).2
    rw [(nowhere_iff.mp hnowhere).2] at hknows
    cases hknows
  provided := h.provided
  skipped := by
    rw [h.skipped, spared_concat, if_pos]
    simp [hoptional, hnowhere]

end Accounts

end Installation

end RealmBoot
