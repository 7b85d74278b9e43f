import Mathlib.Data.List.Induction
import RealmBoot.Proofs.InstallationAccount
import RealmBoot.Proofs.TakingSteps

/-!
# What an Installation Places

Which archives an installation places is fixed by the steps taken and by what the scope answers, and
the scope answers from the manifests as they are when a name is looked up for the first time. This
module says what is to be placed for a list of steps, and shows that an installation places exactly
that, in order, as far as it gets.

## Main results

* `Installation.placements`: what is to be placed for a list of steps.
* `Installation.Course`: what steps that were taken have placed and reported.
* `Installation.course_of_takeAll`: steps that were taken have run such a course.
-/

namespace RealmBoot

open FileSystem

namespace Installation

variable {target : Path} {names : List String} {index frozen : ShortNameIndex}
  {start site site' : Site} {report report' : InstallationReport} {taken rest : List Step}
  {step : Step} {e : ResolutionError} {name : String}

/-! ### What is to be placed -/

/-- The names that steps declare. -/
def declaredNames (steps : List Step) : List String :=
  (steps.filterMap Step.declared?).map (·.1.name)

/-- A step for a module itself declares no name. -/
@[simp] theorem declaredNames_concat_own (taken : List Step) (d : Descriptor) :
    declaredNames (taken ++ [.own d]) = declaredNames taken := by
  simp [declaredNames]

/-- A step for a dependency declares its name. -/
@[simp] theorem declaredNames_concat_declared (taken : List Step) (d : Dependency)
    (requiredBy : String) :
    declaredNames (taken ++ [.declared d requiredBy]) = declaredNames taken ++ [d.name] := by
  simp [declaredNames]

/-- Whether a step declares a name that the batch does not have, so that it takes a lookup unless
the name was declared before. -/
def Step.asks (names : List String) : Step → Prop
  | .own _ => False
  | .declared d _ => d.name ∉ names

/-- What a step has placed after other steps, if the scope answers from an index: an archive of the
batch always, a dependency when its name is declared for the first time. -/
def Step.placement? (target : Path) (names : List String) (index : ShortNameIndex)
    (before : List Step) : Step → Option Placement
  | .own d => some ⟨d.shortName, d.archive.path, ownTarget target d.shortName⟩
  | .declared d _ =>
    if d.name ∈ names ∨ d.name ∈ declaredNames before then none
    else (Scope.lookup index d.name).map fun a =>
      ⟨d.name, a.path, dependencyTarget target d.name⟩

/-- What steps have placed after other steps. -/
def placements (target : Path) (names : List String) (index : ShortNameIndex) :
    List Step → List Step → List Placement
  | _, [] => []
  | before, step :: rest =>
    (step.placement? target names index before).toList ++
      placements target names index (before ++ [step]) rest

/-- What is to be placed for steps in two parts is what is to be placed for the one part and then,
knowing of it, for the other. -/
theorem placements_append (before taken rest : List Step) :
    placements target names index before (taken ++ rest) =
      placements target names index before taken ++
        placements target names index (before ++ taken) rest := by
  induction taken generalizing before with
  | nil => simp [placements]
  | cons step taken ih =>
      rw [List.cons_append, placements, placements, ih, List.append_assoc, List.append_assoc,
        List.singleton_append]

/-- One more step adds what it has placed. -/
theorem placements_concat (taken : List Step) (step : Step) :
    placements target names index [] (taken ++ [step]) =
      placements target names index [] taken ++
        (step.placement? target names index taken).toList := by
  rw [placements_append, List.nil_append]
  simp [placements]

/-- Exactly what is to be placed for some steps was placed, in order. -/
def Performs (target : Path) (names : List String) (index : ShortNameIndex) (made : FileSystem)
    (taken : List Step) (there : FileSystem) : Prop :=
  ∃ records, Places made records there ∧
    records.map (·.placement) = placements target names index [] taken

/-! ### The first lookup -/

/-- The index is what the scope answers from when a name is looked up for the first time: after all
that is placed for the steps before, none of which takes a lookup. -/
structure FirstLookup (target : Path) (names : List String) (start : Site)
    (index : ShortNameIndex) (taken : List Step) : Prop where
  /-- There is a first step that takes one. -/
  first : ∃ quiet asking later, taken = quiet ++ asking :: later ∧
    (∀ step ∈ quiet, ¬ step.asks names) ∧ asking.asks names ∧
    ∃ there, Performs target names index start.files quiet there ∧ start.scope.Answers there index

/-- The first lookup stays the first when more steps are taken. -/
theorem FirstLookup.append (h : FirstLookup target names start index taken) (rest : List Step) :
    FirstLookup target names start index (taken ++ rest) := by
  obtain ⟨quiet, asking, later, rfl, hfirst⟩ := h.first
  exact ⟨quiet, asking, later ++ rest, by simp, hfirst⟩

/-- What steps that were taken have placed and reported, the scope answering from an index. -/
structure Course (target : Path) (names : List String) (index : ShortNameIndex) (start : Site)
    (taken : List Step) (report : InstallationReport) (site : Site) : Prop where
  /-- All that was to be placed was placed in order, and is what the report lists. -/
  placed : ∃ records, Places start.files records site.files ∧
    records.map (·.placement) = placements target names index [] taken ∧
    (report.batch ++ report.dependencies).Perm records
  /-- The names that come from the scope are those declared that the batch does not have. -/
  fetched : ∀ name, name ∈ report.dependencies.map (·.name) ↔
    name ∉ names ∧ name ∈ declaredNames taken ∧ (Scope.lookup index name).isSome = true
  /-- The scope is as at the start, or frozen with the index since the first lookup. -/
  scope : (∀ step ∈ taken, ¬ step.asks names) ∧ site.scope = start.scope ∨
    FirstLookup target names start index taken ∧
      site.scope = { start.scope with index? := some index }

namespace Course

/-- Before any step nothing is placed or reported, and the scope is as at the start. -/
theorem nil : Course target names index start [] {} start where
  placed := ⟨[], .nil _, rfl, .refl _⟩
  fetched name := by simp [declaredNames]
  scope := .inl ⟨by simp, rfl⟩

/-- A name is settled if it is in the batch, or was declared before and is in the scope. -/
theorem settled_iff (h : Course target names index start taken report site) :
    settled names report name = true ↔ name ∈ names ∨
      name ∈ declaredNames taken ∧ (Scope.lookup index name).isSome = true := by
  rw [settled, Bool.or_eq_true, List.contains_iff_mem, List.contains_iff_mem, h.fetched]
  by_cases hname : name ∈ names <;> simp [hname]

/-- What was to be placed was placed. -/
theorem performs (h : Course target names index start taken report site) :
    Performs target names index start.files taken site.files := by
  obtain ⟨records, hplaces, hrecords, -⟩ := h.placed
  exact ⟨records, hplaces, hrecords⟩

/-- A step that takes a lookup takes the first one, or finds the scope frozen. -/
theorem firstLookup (h : Course target names index start taken report site) (step : Step)
    (hasks : step.asks names) (hanswers : site.scope.Answers site.files index) :
    FirstLookup target names start index (taken ++ [step]) ∧
      ({ site.scope with index? := some index } : Scope) =
        { start.scope with index? := some index } := by
  rcases h.scope with ⟨hquiet, hscope⟩ | ⟨hfirst, hscope⟩
  · rw [hscope] at hanswers
    exact ⟨⟨taken, step, [], rfl, hquiet, hasks, site.files, h.performs, hanswers⟩, by rw [hscope]⟩
  · exact ⟨hfirst.append _, by rw [hscope]⟩

/-- The scope stays as it is while no lookup is taken. -/
theorem scope_concat (h : Course target names index start taken report site) (step : Step)
    (hquiet : ¬ step.asks names ∨ ∃ d requiredBy, step = .declared d requiredBy ∧
      d.name ∈ declaredNames taken) :
    (∀ s ∈ taken ++ [step], ¬ s.asks names) ∧ site.scope = start.scope ∨
      FirstLookup target names start index (taken ++ [step]) ∧
        site.scope = { start.scope with index? := some index } := by
  rcases h.scope with ⟨hnone, hscope⟩ | ⟨hfirst, hscope⟩
  · refine .inl ⟨fun s hs => ?_, hscope⟩
    rcases List.mem_append.mp hs with hs | hs
    · exact hnone s hs
    · obtain rfl := List.mem_singleton.mp hs
      rcases hquiet with hquiet | ⟨d, requiredBy, rfl, hdeclared⟩
      · exact hquiet
      · -- The name was declared by a step before, which would have taken the lookup.
        obtain ⟨declaration, hmem, hname⟩ := List.mem_map.mp hdeclared
        obtain ⟨s, hs, hdeclares⟩ := List.mem_filterMap.mp hmem
        cases s with
        | own => cases hdeclares
        | declared d' by' =>
            cases hdeclares
            intro hasks
            exact hnone _ hs (by rwa [Step.asks, hname])
  · exact .inr ⟨hfirst.append _, hscope⟩

/-- **One more step.** What it has placed is added to what was placed before, and to the report. -/
theorem advance (h : Course target names index start taken report site)
    (hstep : Advances target names report site step report' site')
    (hindex : ∀ frozen, site'.scope.index? = some frozen → frozen = index) :
    Course target names index start (taken ++ [step]) report' site' := by
  obtain ⟨records, hplaces, hrecords, hperm⟩ := h.placed
  cases hstep with
  | own placed =>
      obtain ⟨⟨hname, hsource, htarget⟩, -⟩ := placed_of_install placed
      refine ⟨⟨_, hplaces.concat (by rw [hname, hsource, htarget]; exact placed), ?_, ?_⟩, ?_, ?_⟩
      · rw [List.map_append, hrecords, placements_concat, Step.placement?, Option.toList_some,
          List.map_singleton, Installed.placement, hname, hsource, htarget]
      · rw [List.append_assoc]
        exact (List.perm_append_comm.append_left _).trans
          (by rw [← List.append_assoc]; exact hperm.append_right _)
      · simpa using h.fetched
      · exact h.scope_concat _ (.inl id)
  | @settled d requiredBy hsettled =>
      rw [h.settled_iff] at hsettled
      have hnothing : d.name ∈ names ∨ d.name ∈ declaredNames taken := hsettled.imp_right (·.1)
      refine ⟨⟨records, hplaces, ?_, hperm⟩, fun name => ?_, ?_⟩
      · rw [placements_concat, Step.placement?, if_pos hnothing, Option.toList_none,
          List.append_nil, hrecords]
      · rw [h.fetched, declaredNames_concat_declared, List.mem_append, List.mem_singleton]
        constructor
        · rintro ⟨hnames, hdeclared, hfound⟩
          exact ⟨hnames, .inl hdeclared, hfound⟩
        · rintro ⟨hnames, hdeclared | rfl, hfound⟩
          · exact ⟨hnames, hdeclared, hfound⟩
          · exact ⟨hnames, (hsettled.resolve_left hnames).1, hfound⟩
      · refine h.scope_concat _ (hnothing.imp (fun hmem hasks => hasks hmem) fun hdeclared => ?_)
        exact ⟨d, requiredBy, rfl, hdeclared⟩
  | @fetched d requiredBy index' a i files hunsettled hanswers hfound hplaced =>
      obtain rfl : index' = index := hindex index' rfl
      rw [h.settled_iff, not_or, hfound] at hunsettled
      obtain ⟨hnames, hnew⟩ := hunsettled
      have hnew' : d.name ∉ declaredNames taken := fun hdeclared => hnew ⟨hdeclared, rfl⟩
      obtain ⟨⟨hname, hsource, htarget⟩, -⟩ := placed_of_install hplaced
      refine ⟨⟨_, hplaces.concat (by rw [hname, hsource, htarget]; exact hplaced), ?_, ?_⟩,
        fun name => ?_, .inr (h.firstLookup (.declared d requiredBy) hnames hanswers)⟩
      · rw [List.map_append, hrecords, placements_concat, Step.placement?,
          if_neg (not_or.mpr ⟨hnames, hnew'⟩), hfound, Option.map_some, Option.toList_some,
          List.map_singleton, Installed.placement, hname, hsource, htarget]
      · rw [← List.append_assoc]
        exact hperm.append_right _
      · rw [List.map_append, List.mem_append, h.fetched, List.map_singleton, List.mem_singleton,
          hname, declaredNames_concat_declared, List.mem_append, List.mem_singleton]
        constructor
        · rintro (⟨hother, hdeclared, hsome⟩ | rfl)
          · exact ⟨hother, .inl hdeclared, hsome⟩
          · exact ⟨hnames, .inr rfl, by rw [hfound]; rfl⟩
        · rintro ⟨hother, hdeclared | heq, hsome⟩
          · exact .inl ⟨hother, hdeclared, hsome⟩
          · exact .inr heq
  | @skipped d requiredBy index' hunsettled hanswers hmissing hoptional =>
      obtain rfl : index' = index := hindex index' rfl
      rw [h.settled_iff, not_or, hmissing] at hunsettled
      have hnames := hunsettled.1
      refine ⟨⟨records, hplaces, ?_, hperm⟩, fun name => ?_,
        .inr (h.firstLookup (.declared d requiredBy) hnames hanswers)⟩
      · rw [placements_concat, Step.placement?, hmissing, Option.map_none, ite_self,
          Option.toList_none, List.append_nil, hrecords]
      · rw [h.fetched, declaredNames_concat_declared, List.mem_append, List.mem_singleton]
        constructor
        · rintro ⟨hother, hdeclared, hsome⟩
          exact ⟨hother, .inl hdeclared, hsome⟩
        · rintro ⟨hother, hdeclared | rfl, hsome⟩
          · exact ⟨hother, hdeclared, hsome⟩
          · rw [hmissing] at hsome
            cases hsome

end Course

/-! ### All steps -/

/-- **The course of steps that were taken.** -/
theorem course_of_takeAll (h : outcome (takeAll target names {} taken) start = (.ok report, site))
    (hindex : ∀ frozen, site.scope.index? = some frozen → frozen = index) :
    Course target names index start taken report site := by
  induction taken using List.reverseRecOn generalizing report site with
  | nil =>
      cases h
      exact .nil
  | append_singleton taken step ih =>
      rw [takeAll_append] at h
      obtain ⟨report₁, site₁, htaken, hlast⟩ := outcome_bind_eq_ok_iff.mp h
      rw [takeAll] at hlast
      obtain ⟨report₂, site₂, htake, hdone⟩ := outcome_bind_eq_ok_iff.mp hlast
      cases hdone
      have hstep := advances_of_take htake
      exact (ih htaken fun frozen hfrozen => hindex frozen (hstep.keeps_index hfrozen)).advance
        hstep hindex

end Installation

end RealmBoot
