import RealmBoot.Proofs.InstalledFiles

/-!
# Installations That Halt

An installation that fails has done what the steps before the failing one do, and nothing else. The
scope has a part in a failure only where a dependency is declared that the batch does not have: an
installation that declares none ends in the same way whatever the scope is.

## Main results

* `Installation.Halts`: the ways an installation can fail, each with what it leaves.
* `Installation.halts_of_run`: every installation that fails, fails in one of these ways.
* `Installation.outcome_run_of_satisfied`: what the scope is does not count if the batch has all
  that it declares.
-/

namespace RealmBoot

open FileSystem

namespace Installation

variable {target : Path} {names : List String} {index : ShortNameIndex} {site : Site}
  {report : InstallationReport} {taken rest : List Step} {step : Step} {e : ResolutionError}
  {batch earlier later : List Descriptor} {d : Descriptor} {dependency : Dependency}
  {requiredBy : String} {fs made : FileSystem} {scope : Scope}

/-! ### The steps before a declaration -/

/-- An archive of a batch declares a dependency after some other archives and declarations. -/
def Declares (batch earlier : List Descriptor) (d : Descriptor) (declarations : List Dependency)
    (dependency : Dependency) : Prop :=
  ∃ later others, batch = earlier ++ d :: later ∧
    d.dependencies = declarations ++ dependency :: others

/-- The steps before a declaration: those for the archives before the one that makes it, that
archive itself, and the declarations it makes before. -/
def stepsBefore (earlier : List Descriptor) (d : Descriptor) (declarations : List Dependency) :
    List Step :=
  steps earlier ++ .own d :: declarations.map (.declared · d.shortName)

/-- The archives of the batch among them. -/
theorem filterMap_own_stepsBefore (earlier : List Descriptor) (d : Descriptor)
    (declarations : List Dependency) :
    (stepsBefore earlier d declarations).filterMap Step.own? = earlier ++ [d] := by
  have hnone : (declarations.map (Step.declared · d.shortName)).filterMap Step.own? = [] := by
    simp [List.filterMap_map, Function.comp_def]
  rw [stepsBefore, List.filterMap_append, filterMap_own_steps, List.filterMap_cons, hnone]
  rfl

/-- **The steps before a declaration of a batch** are those of the archives before, and so on. -/
theorem exists_of_steps_eq (h : steps batch = taken ++ .declared dependency requiredBy :: rest) :
    ∃ earlier d declarations, Declares batch earlier d declarations dependency ∧
      requiredBy = d.shortName ∧ taken = stepsBefore earlier d declarations := by
  induction batch generalizing taken with
  | nil => cases taken <;> cases h
  | cons first batch ih =>
      have hsteps : steps (first :: batch) =
          (.own first :: first.dependencies.map (.declared · first.shortName)) ++ steps batch := rfl
      rw [hsteps] at h
      rcases List.append_eq_append_iff.mp h with ⟨more, htaken, hrest⟩ | ⟨more, hown, hdeclared⟩
      · -- The declaration is made by an archive of the rest.
        obtain ⟨earlier, d, declarations, ⟨later, others, rfl, hdeclares⟩, hname, rfl⟩ := ih hrest
        refine ⟨first :: earlier, d, declarations, ⟨later, others, rfl, hdeclares⟩, hname, ?_⟩
        rw [htaken, stepsBefore, stepsBefore, ← List.append_assoc]
        rfl
      · cases more with
        | nil =>
            cases batch <;> cases hdeclared
        | cons step more =>
            obtain ⟨rfl, -⟩ := List.cons_eq_cons.mp hdeclared
            cases taken with
            | nil => cases hown
            | cons own taken =>
                obtain ⟨rfl, hmap⟩ := List.cons_eq_cons.mp hown
                obtain ⟨declarations, others, hdependencies, rfl, hothers⟩ :=
                  List.map_eq_append_iff.mp hmap
                obtain ⟨dependency', others, rfl, heq, -⟩ := List.map_eq_cons_iff.mp hothers
                cases heq
                exact ⟨[], first, declarations, ⟨batch, others, rfl, hdependencies⟩, rfl, rfl⟩

/-- What is placed for an archive of the batch. -/
def ownPlacement (target : Path) (d : Descriptor) : Placement :=
  ⟨d.shortName, d.archive.path, ownTarget target d.shortName⟩

/-- As long as no lookup is taken, the archives of the batch are placed only. -/
theorem placements_of_quiet {before : List Step} (h : ∀ step ∈ taken, ¬ step.asks names) :
    placements target names index before taken =
      (taken.filterMap Step.own?).map (ownPlacement target) := by
  induction taken generalizing before with
  | nil => rfl
  | cons step taken ih =>
      obtain ⟨hstep, htaken⟩ := List.forall_mem_cons.mp h
      rw [placements, ih htaken]
      cases step with
      | own d => rfl
      | declared d requiredBy =>
          have hmem : d.name ∈ names := Classical.not_not.mp hstep
          rw [Step.placement?, if_pos (.inl hmem)]
          rfl

/-! ### How an installation halts -/

/-- The ways an installation of a batch can fail, each with the error and with the files it leaves:
those with the target directory made, and with the installs of the steps before the failing one
performed in order. -/
inductive Halts (target : Path) (batch : List Descriptor) (scope : Scope) (fs : FileSystem) :
    ResolutionError → FileSystem → Prop
  /-- The directory cannot be made. -/
  | directory {fault : Fault} {made : FileSystem}
      (fails : outcome (createDirs target) fs = (.error fault, made)) :
      Halts target batch scope fs (.discovery (.io target fault)) made
  /-- An archive cannot be placed. -/
  | copy {made there : FileSystem} {taken rest : List Step} {step : Step} {index : ShortNameIndex}
      {p : Placement} {fault : Fault}
      (makes : outcome (createDirs target) fs = (.ok (), made))
      (reached : steps batch = taken ++ step :: rest)
      (performed : Performs target (batch.map (·.shortName)) index made taken there)
      (looked : (∃ s ∈ taken ++ [step], s.asks (batch.map (·.shortName))) →
        FirstLookup target (batch.map (·.shortName)) ⟨made, scope⟩ index (taken ++ [step]))
      (next : step.placement? target (batch.map (·.shortName)) index taken = some p)
      (fails : outcome (install p.name p.source p.target) there =
        (.error (.copy p.source p.target fault), there)) :
      Halts target batch scope fs (.copy p.source p.target fault) there
  /-- A dependency is declared that the batch does not have, and a manifest of the scope cannot be
  read. This is the first lookup, so that of the batch alone archives were placed. -/
  | unreadable {made there : FileSystem} {earlier : List Descriptor} {d : Descriptor}
      {declarations : List Dependency} {dependency : Dependency} {e : DiscoveryError}
      {records : List Installed}
      (makes : outcome (createDirs target) fs = (.ok (), made))
      (reached : Declares batch earlier d declarations dependency)
      (unsatisfied : ∀ d' ∈ batch, d'.shortName ≠ dependency.name)
      (placed : Places made records there)
      (performed : records.map (·.placement) = (earlier ++ [d]).map (ownPlacement target))
      (fresh : scope.index? = none)
      (unread : Scope.readIndex there scope.archives.toList = .error e) :
      Halts target batch scope fs (.discovery e) there
  /-- A required dependency is declared that neither the batch nor the scope has. -/
  | missing {made there : FileSystem} {earlier : List Descriptor} {d : Descriptor}
      {declarations : List Dependency} {dependency : Dependency} {index : ShortNameIndex}
      (makes : outcome (createDirs target) fs = (.ok (), made))
      (reached : Declares batch earlier d declarations dependency)
      (required : dependency.optional = false)
      (unsatisfied : ∀ d' ∈ batch, d'.shortName ≠ dependency.name)
      (performed : Performs target (batch.map (·.shortName)) index made
        (stepsBefore earlier d declarations) there)
      (looked : FirstLookup target (batch.map (·.shortName)) ⟨made, scope⟩ index
        (stepsBefore earlier d declarations ++ [.declared dependency d.shortName]))
      (missing : Scope.lookup index dependency.name = none) :
      Halts target batch scope fs (.missingDependency dependency.text d.shortName scope.text) there

/-- A name that is not settled is not in the batch. -/
theorem ne_of_unsettled {name : String}
    (h : ¬ settled (batch.map (·.shortName)) report name = true) :
    ∀ d ∈ batch, d.shortName ≠ name := by
  rintro d hd rfl
  refine h ?_
  rw [settled, List.contains_iff_mem.mpr (List.mem_map_of_mem hd), Bool.true_or]

/-- However an installation ends, it has placed what is to be placed for some first steps, unless
the directory could not be made. -/
theorem run_performs (target : Path) (batch : List Descriptor) (fs : FileSystem) (scope : Scope) :
    (outcome (run target batch) ⟨fs, scope⟩).2.files = (outcome (createDirs target) fs).2 ∨
      ∃ made index taken, outcome (createDirs target) fs = (.ok (), made) ∧ taken <+: steps batch ∧
        Performs target (batch.map (·.shortName)) index made taken
          (outcome (run target batch) ⟨fs, scope⟩).2.files := by
  rcases hrun : outcome (run target batch) ⟨fs, scope⟩ with ⟨e | report, site⟩
  · rcases run_of_error hrun with ⟨fault, made, hfail, -, rfl⟩ |
      ⟨made, taken, step, rest, report, site₁, hmade, hsteps, htaken, hstops⟩
    · exact .inl (by rw [hfail])
    · have hcourse : Course target (batch.map (·.shortName)) (site₁.scope.index?.getD ∅)
          ⟨made, scope⟩ taken report site₁ :=
        course_of_takeAll htaken fun frozen h => by rw [h, Option.getD_some]
      refine .inr
        ⟨made, site₁.scope.index?.getD ∅, taken, hmade, hsteps ▸ List.prefix_append _ _, ?_⟩
      rw [hstops.files]
      exact hcourse.performs
  · obtain ⟨made, hmade, -⟩ := run_of_ok hrun
    exact .inr ⟨made, site.scope.index?.getD ∅, steps batch, hmade, List.prefix_refl _,
      (course_of_run hmade hrun).performs⟩

/-- **An installation that fails halts in one of these ways.** Which index the scope answers from is
known to the failing step, unless it takes no lookup. -/
theorem halts_of_run (h : outcome (run target batch) ⟨fs, scope⟩ = (.error e, site)) :
    Halts target batch scope fs e site.files := by
  rcases run_of_error h with ⟨fault, made, hfail, rfl, rfl⟩ |
    ⟨made, taken, step, rest, report, site₁, hmade, hsteps, htaken, hstops⟩
  · exact .directory hfail
  rw [hstops.files]
  have hcourse : ∀ index, (∀ frozen, site₁.scope.index? = some frozen → frozen = index) →
      Course target (batch.map (·.shortName)) index ⟨made, scope⟩ taken report site₁ :=
    fun index hindex => course_of_takeAll htaken hindex
  have hanyway := hcourse (site₁.scope.index?.getD ∅) fun frozen hfrozen => by
    rw [hfrozen, Option.getD_some]
  cases hstops with
  | @own d fault hfails =>
      have hnext : ∀ index, (Step.own d).placement? target (batch.map (·.shortName)) index taken =
          some (ownPlacement target d) := fun _ => rfl
      refine .copy hmade hsteps hanyway.performs ?_ (hnext _) hfails
      rintro ⟨s, hs, hasks⟩
      rcases hanyway.scope_concat (.own d) (.inl id) with ⟨hquiet, -⟩ | ⟨hfirst, -⟩
      · exact absurd hasks (hquiet s hs)
      · exact hfirst
  | @unreadable dependency requiredBy e hunsettled hfresh hunread =>
      obtain ⟨earlier, d, declarations, hdeclares, -, rfl⟩ := exists_of_steps_eq hsteps
      obtain ⟨records, hplaces, hrecords⟩ := hanyway.performs
      rcases hanyway.scope with ⟨hquiet, hscope⟩ | ⟨-, hscope⟩
      · rw [hscope] at hfresh hunread
        rw [placements_of_quiet hquiet, filterMap_own_stepsBefore] at hrecords
        exact .unreadable hmade hdeclares (ne_of_unsettled hunsettled) hplaces hrecords hfresh
          hunread
      · rw [hscope] at hfresh
        cases hfresh
  | @fetched dependency requiredBy index a fault hunsettled hanswers hfound hfails =>
      have hrun := hcourse index fun _ => hanswers.eq_of_frozen
      have hlooked := hrun.firstLookup (.declared dependency requiredBy)
        (fun hmem => hunsettled (hrun.settled_iff.mpr (.inl hmem))) hanswers
      have hnothing : ¬ (dependency.name ∈ batch.map (·.shortName) ∨
          dependency.name ∈ declaredNames taken) := by
        rw [hrun.settled_iff, hfound] at hunsettled
        exact fun hmem => hunsettled (hmem.imp_right fun hdeclared => ⟨hdeclared, rfl⟩)
      have hnext : (Step.declared dependency requiredBy).placement? target
          (batch.map (·.shortName)) index taken =
            some ⟨dependency.name, a.path, dependencyTarget target dependency.name⟩ := by
        rw [Step.placement?, if_neg hnothing, hfound]
        rfl
      exact .copy hmade hsteps hrun.performs (fun _ => hlooked.1) hnext hfails
  | @missing dependency requiredBy index hunsettled hanswers hmissing hrequired =>
      have hrun := hcourse index fun _ => hanswers.eq_of_frozen
      obtain ⟨earlier, d, declarations, hdeclares, rfl, rfl⟩ := exists_of_steps_eq hsteps
      have hlooked := hrun.firstLookup (.declared dependency d.shortName)
        (fun hmem => hunsettled (hrun.settled_iff.mpr (.inl hmem))) hanswers
      have htext : site₁.scope.text = scope.text := by
        have hsame := congrArg Scope.text hlooked.2
        exact hsame
      rw [htext]
      exact .missing hmade hdeclares hrequired (ne_of_unsettled hunsettled) hrun.performs hlooked.1
        hmissing

/-! ### What the scope has to do with it -/

/-- A step that takes no lookup does the same whatever the scope is. -/
theorem outcome_take_of_quiet (h : ¬ step.asks names) (fs : FileSystem) (scope scope' : Scope) :
    outcome (take target names report step) ⟨fs, scope⟩ =
      ((outcome (take target names report step) ⟨fs, scope'⟩).1,
        ⟨(outcome (take target names report step) ⟨fs, scope'⟩).2.files, scope⟩) := by
  cases step with
  | own d =>
      have hfiles := fun scope : Scope => SiteAction.outcome_onFiles
        (install d.shortName d.archive.path (ownTarget target d.shortName)) ⟨fs, scope⟩
      rw [take]
      rcases hinstall :
          outcome (install d.shortName d.archive.path (ownTarget target d.shortName)) fs
        with ⟨e | i, fs'⟩
      · simp only [hinstall] at hfiles
        rw [outcome_bind_of_error (hfiles scope), outcome_bind_of_error (hfiles scope')]
      · simp only [hinstall] at hfiles
        rw [outcome_bind_of_ok (hfiles scope), outcome_bind_of_ok (hfiles scope')]
        rfl
  | declared d requiredBy =>
      have hmem : d.name ∈ names := Classical.not_not.mp h
      have hsettled : settled names report d.name = true := by
        rw [settled, List.contains_iff_mem.mpr hmem, Bool.true_or]
      rw [take, if_pos hsettled]
      rfl

/-- Steps that take no lookup do the same whatever the scope is. -/
theorem outcome_takeAll_of_quiet (h : ∀ step ∈ taken, ¬ step.asks names) (fs : FileSystem)
    (scope scope' : Scope) :
    outcome (takeAll target names report taken) ⟨fs, scope⟩ =
      ((outcome (takeAll target names report taken) ⟨fs, scope'⟩).1,
        ⟨(outcome (takeAll target names report taken) ⟨fs, scope'⟩).2.files, scope⟩) := by
  induction taken generalizing report fs scope' with
  | nil => rfl
  | cons step taken ih =>
      obtain ⟨hstep, htaken⟩ := List.forall_mem_cons.mp h
      have htake : outcome (take target names report step) ⟨fs, scope⟩ = _ :=
        outcome_take_of_quiet hstep fs scope scope'
      rw [takeAll]
      rcases htake' : outcome (take target names report step) ⟨fs, scope'⟩ with
        ⟨e | report₁, ⟨fs₁, scope₁⟩⟩
      · rw [htake'] at htake
        rw [outcome_bind_of_error htake, outcome_bind_of_error htake']
      · rw [htake'] at htake
        rw [outcome_bind_of_ok htake, outcome_bind_of_ok htake']
        exact ih htaken fs₁ scope₁

/-- A batch has all that it declares. -/
def Satisfied (batch : List Descriptor) : Prop :=
  ∀ d ∈ batch, ∀ dependency ∈ d.dependencies, ∃ d' ∈ batch, d'.shortName = dependency.name

/-- **The scope does not count** for a batch that has all it declares: an installation ends in the
same way whatever the scope is. -/
theorem outcome_run_of_satisfied (h : Satisfied batch) (target : Path) (fs : FileSystem)
    (scope scope' : Scope) :
    outcome (run target batch) ⟨fs, scope⟩ =
      ((outcome (run target batch) ⟨fs, scope'⟩).1,
        ⟨(outcome (run target batch) ⟨fs, scope'⟩).2.files, scope⟩) := by
  have hquiet : ∀ step ∈ steps batch, ¬ step.asks (batch.map (·.shortName)) := by
    intro step hstep hasks
    obtain ⟨d, hd, rfl | ⟨dependency, hdependency, rfl⟩⟩ := mem_steps.mp hstep
    · exact hasks
    · obtain ⟨d', hd', hname⟩ := h d hd dependency hdependency
      exact hasks (hname ▸ List.mem_map_of_mem hd')
  rcases hmake : outcome (createDirs target) fs with ⟨fault | ⟨⟩, made⟩
  · rw [outcome_run_of_error hmake, outcome_run_of_error hmake]
  · rw [outcome_run hmake, outcome_run hmake]
    exact outcome_takeAll_of_quiet hquiet made scope scope'

end Installation

end RealmBoot
