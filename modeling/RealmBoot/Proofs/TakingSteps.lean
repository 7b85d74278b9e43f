import Mathlib.Control.Monad.Basic
import RealmBoot.Proofs.PlacingArchives
import RealmBoot.Proofs.ScopeLookup

/-!
# Taking the Steps of an Installation

An installation makes a directory and takes steps one after another, each of which changes the
files, the scope and the report, or ends it. This module takes a single step apart, once and for
all, and says how an installation comes down to its steps.

## Main results

* `Installation.take_cases`: what one step does, or what it fails with.
* `Installation.takeAll_append`, `Installation.takeAll_of_error`: steps one after another.
* `Installation.run_of_ok`, `Installation.run_of_error`: how an installation ends.
-/

namespace RealmBoot

open FileSystem

/-! ### Actions of a site -/

namespace SiteAction

/-- Work on the files of a site leaves its scope alone. -/
theorem outcome_onFiles {α : Type} (x : Action ResolutionError α) (site : Site) :
    outcome (onFiles x) site =
      ((outcome x site.files).1, { site with files := (outcome x site.files).2 }) := rfl

/-- Looking a name up is asking the scope, which may be frozen by it. -/
theorem outcome_lookup (name : String) (site : Site) :
    outcome (lookup name) site =
      ((site.scope.find site.files name).1.mapError .discovery,
        { site with scope := (site.scope.find site.files name).2 }) := rfl

end SiteAction

namespace Installation

variable {target : Path} {names : List String} {index frozen : ShortNameIndex}
  {site site' : Site} {report report' : InstallationReport} {step : Step} {e : ResolutionError}

/-! ### One step -/

/-- What a step that can be taken makes of a report and of a site. -/
inductive Advances (target : Path) (names : List String) (report : InstallationReport)
    (site : Site) : Step → InstallationReport → Site → Prop
  /-- An archive of the batch is placed. -/
  | own {d : Descriptor} {i : Installed} {files : FileSystem}
      (placed : outcome (install d.shortName d.archive.path (ownTarget target d.shortName))
        site.files = (.ok i, files)) :
      Advances target names report site (.own d)
        { report with batch := report.batch ++ [i] } { site with files }
  /-- A name that is settled needs nothing. -/
  | settled {d : Dependency} {requiredBy : String}
      (settled : settled names report d.name = true) :
      Advances target names report site (.declared d requiredBy) report site
  /-- The archive the scope answers with is placed. -/
  | fetched {d : Dependency} {requiredBy : String} {index : ShortNameIndex} {a : Location}
      {i : Installed} {files : FileSystem} (unsettled : ¬ settled names report d.name = true)
      (answers : site.scope.Answers site.files index)
      (found : Scope.lookup index d.name = some a)
      (placed : outcome (install d.name a.path (dependencyTarget target d.name)) site.files =
        (.ok i, files)) :
      Advances target names report site (.declared d requiredBy)
        { report with dependencies := report.dependencies ++ [i] }
        ⟨files, { site.scope with index? := some index }⟩
  /-- An optional dependency that the scope does not have is left out. -/
  | skipped {d : Dependency} {requiredBy : String} {index : ShortNameIndex}
      (unsettled : ¬ settled names report d.name = true)
      (answers : site.scope.Answers site.files index)
      (missing : Scope.lookup index d.name = none) (optional : d.optional = true) :
      Advances target names report site (.declared d requiredBy)
        { report with skipped := report.skipped ++ [d] }
        { site with scope := { site.scope with index? := some index } }

/-- What a step that cannot be taken fails with. Whatever it is, the files stay as they are. -/
inductive Stops (target : Path) (names : List String) (report : InstallationReport) (site : Site) :
    Step → ResolutionError → Site → Prop
  /-- An archive of the batch cannot be placed. -/
  | own {d : Descriptor} {fault : Fault}
      (fails : outcome (install d.shortName d.archive.path (ownTarget target d.shortName))
        site.files =
          (.error (.copy d.archive.path (ownTarget target d.shortName) fault), site.files)) :
      Stops target names report site (.own d)
        (.copy d.archive.path (ownTarget target d.shortName) fault) site
  /-- A manifest of the scope cannot be read. -/
  | unreadable {d : Dependency} {requiredBy : String} {e : DiscoveryError}
      (unsettled : ¬ settled names report d.name = true) (fresh : site.scope.index? = none)
      (unread : Scope.readIndex site.files site.scope.archives.toList = .error e) :
      Stops target names report site (.declared d requiredBy) (.discovery e) site
  /-- The archive the scope answers with cannot be placed. -/
  | fetched {d : Dependency} {requiredBy : String} {index : ShortNameIndex} {a : Location}
      {fault : Fault} (unsettled : ¬ settled names report d.name = true)
      (answers : site.scope.Answers site.files index)
      (found : Scope.lookup index d.name = some a)
      (fails : outcome (install d.name a.path (dependencyTarget target d.name)) site.files =
        (.error (.copy a.path (dependencyTarget target d.name) fault), site.files)) :
      Stops target names report site (.declared d requiredBy)
        (.copy a.path (dependencyTarget target d.name) fault)
        { site with scope := { site.scope with index? := some index } }
  /-- The scope does not have a required dependency. -/
  | missing {d : Dependency} {requiredBy : String} {index : ShortNameIndex}
      (unsettled : ¬ settled names report d.name = true)
      (answers : site.scope.Answers site.files index)
      (missing : Scope.lookup index d.name = none) (required : d.optional = false) :
      Stops target names report site (.declared d requiredBy)
        (.missingDependency d.text requiredBy site.scope.text)
        { site with scope := { site.scope with index? := some index } }

/-- **One step** is taken, or fails with what stops it. -/
theorem take_cases (target : Path) (names : List String) (report : InstallationReport)
    (site : Site) (step : Step) :
    (∃ report' site', outcome (take target names report step) site = (.ok report', site') ∧
      Advances target names report site step report' site') ∨
      ∃ e site', outcome (take target names report step) site = (.error e, site') ∧
        Stops target names report site step e site' := by
  cases step with
  | own d =>
      have hfiles := SiteAction.outcome_onFiles
        (install d.shortName d.archive.path (ownTarget target d.shortName)) site
      rw [take]
      rcases install_cases d.shortName d.archive.path (ownTarget target d.shortName) site.files with
        ⟨fault, hfail⟩ | ⟨upToDate, files, hok, -⟩
      · rw [hfail] at hfiles
        exact .inr ⟨_, _, outcome_bind_of_error hfiles, .own hfail⟩
      · rw [hok] at hfiles
        exact .inl ⟨_, _, outcome_bind_of_ok hfiles, .own hok⟩
  | declared d requiredBy =>
      rw [take]
      by_cases hsettled : settled names report d.name = true
      · rw [if_pos hsettled]
        exact .inl ⟨_, _, rfl, .settled hsettled⟩
      · rw [if_neg hsettled]
        have hlookup := SiteAction.outcome_lookup d.name site
        rcases site.scope.find_cases site.files d.name with
          ⟨index, hanswers, hfind⟩ | ⟨hfresh, e, hunread, hfind⟩
        · rw [hfind] at hlookup
          rw [outcome_bind_of_ok hlookup]
          cases hfound : Scope.lookup index d.name with
          | some a =>
              have hfiles := SiteAction.outcome_onFiles
                (install d.name a.path (dependencyTarget target d.name))
                { site with scope := { site.scope with index? := some index } }
              rcases install_cases d.name a.path (dependencyTarget target d.name) site.files with
                ⟨fault, hfail⟩ | ⟨upToDate, files, hok, -⟩
              · rw [hfail] at hfiles
                exact .inr ⟨_, _, outcome_bind_of_error hfiles,
                  .fetched hsettled hanswers hfound hfail⟩
              · rw [hok] at hfiles
                exact .inl ⟨_, _, outcome_bind_of_ok hfiles, .fetched hsettled hanswers hfound hok⟩
          | none =>
              dsimp only
              split_ifs with hoptional
              · exact .inl ⟨_, _, rfl, .skipped hsettled hanswers hfound hoptional⟩
              · exact .inr ⟨_, _, rfl, .missing hsettled hanswers hfound (by simpa using hoptional)⟩
        · rw [hfind] at hlookup
          exact .inr ⟨_, _, outcome_bind_of_error hlookup, .unreadable hsettled hfresh hunread⟩

/-- A step that is taken advances the installation. -/
theorem advances_of_take
    (h : outcome (take target names report step) site = (.ok report', site')) :
    Advances target names report site step report' site' := by
  rcases take_cases target names report site step with ⟨_, _, hok, hstep⟩ | ⟨_, _, hfail, -⟩
  · rw [hok] at h
    cases h
    exact hstep
  · rw [hfail] at h
    cases h

/-- A step that cannot be taken leaves the files as they are. -/
theorem Stops.files (h : Stops target names report site step e site') :
    site'.files = site.files := by
  cases h <;> rfl

/-- What a scope has read it keeps. -/
theorem Advances.keeps_index (h : Advances target names report site step report' site')
    (hfrozen : site.scope.index? = some frozen) : site'.scope.index? = some frozen := by
  cases h with
  | own => exact hfrozen
  | settled => exact hfrozen
  | fetched _ answers => rw [answers.eq_of_frozen hfrozen]
  | skipped _ answers => rw [answers.eq_of_frozen hfrozen]

/-! ### All steps -/

/-- Steps are taken in two parts, the second of which goes on from the report of the first. -/
theorem takeAll_append (taken rest : List Step) :
    takeAll target names report (taken ++ rest) =
      takeAll target names report taken >>= fun report => takeAll target names report rest := by
  induction taken generalizing report with
  | nil => rw [List.nil_append, takeAll, pure_bind]
  | cons step taken ih =>
      rw [List.cons_append, takeAll, takeAll, bind_assoc]
      congr 1
      funext report₁
      exact ih

/-- Steps that were taken can be taken before the rest. -/
theorem outcome_takeAll_append {report report' : InstallationReport} {taken : List Step}
    {site site' : Site}
    (h : outcome (takeAll target names report taken) site = (.ok report', site'))
    (rest : List Step) :
    outcome (takeAll target names report (taken ++ rest)) site =
      outcome (takeAll target names report' rest) site' := by
  rw [takeAll_append, outcome_bind_of_ok h]

/-- Steps that cannot all be taken are taken up to one that cannot. -/
theorem takeAll_of_error {steps : List Step}
    (h : outcome (takeAll target names report steps) site = (.error e, site')) :
    ∃ taken step rest report₁ site₁, steps = taken ++ step :: rest ∧
      outcome (takeAll target names report taken) site = (.ok report₁, site₁) ∧
      Stops target names report₁ site₁ step e site' := by
  induction steps generalizing report site with
  | nil => cases h
  | cons step steps ih =>
      rw [takeAll] at h
      rcases take_cases target names report site step with
        ⟨report₁, site₁, htake, -⟩ | ⟨e', site₁, hfail, hstops⟩
      · rw [outcome_bind_of_ok htake] at h
        obtain ⟨taken, stopping, rest, report₂, site₂, rfl, htaken, hstops⟩ := ih h
        refine ⟨step :: taken, stopping, rest, report₂, site₂, rfl, ?_, hstops⟩
        rw [takeAll, outcome_bind_of_ok htake, htaken]
      · rw [outcome_bind_of_error hfail] at h
        cases h
        exact ⟨[], step, steps, report, site, rfl, rfl, hstops⟩

/-! ### The whole installation -/

variable {batch : List Descriptor} {fs made : FileSystem} {scope : Scope}

/-- An installation whose directory can be made comes down to its steps. -/
theorem outcome_run {batch : List Descriptor} {fs fs₁ : FileSystem}
    (hdir : outcome (FileSystem.createDirs target) fs = (.ok (), fs₁)) :
    outcome (run target batch) ⟨fs, scope⟩ =
      outcome (takeAll target (batch.map (·.shortName)) {} (steps batch)) ⟨fs₁, scope⟩ := by
  have hmade : outcome (SiteAction.onFiles (Action.mapFailure (.discovery <| .io target ·)
      (FileSystem.createDirs target))) ⟨fs, scope⟩ = (.ok (), ⟨fs₁, scope⟩) := by
    rw [SiteAction.outcome_onFiles, outcome_mapFailure, hdir]
    rfl
  exact outcome_bind_of_ok hmade

/-- An installation whose directory cannot be made ends with that. -/
theorem outcome_run_of_error {fault : Fault}
    (h : outcome (createDirs target) fs = (.error fault, made)) :
    outcome (run target batch) ⟨fs, scope⟩ =
      (.error (.discovery (.io target fault)), ⟨made, scope⟩) := by
  refine outcome_bind_of_error ?_
  rw [SiteAction.outcome_onFiles, outcome_mapFailure, h]
  rfl

/-- **An installation that succeeds** has made the directory and taken all steps. -/
theorem run_of_ok (h : outcome (run target batch) ⟨fs, scope⟩ = (.ok report, site)) :
    ∃ made, outcome (createDirs target) fs = (.ok (), made) ∧
      outcome (takeAll target (batch.map (·.shortName)) {} (steps batch)) ⟨made, scope⟩ =
        (.ok report, site) := by
  rcases hmake : outcome (createDirs target) fs with ⟨fault | ⟨⟩, made⟩
  · rw [outcome_run_of_error hmake] at h
    cases h
  · rw [outcome_run hmake] at h
    exact ⟨made, rfl, h⟩

/-- **An installation that fails** could not make the directory, or has taken the steps up to one
that cannot be taken. -/
theorem run_of_error (h : outcome (run target batch) ⟨fs, scope⟩ = (.error e, site)) :
    (∃ fault made, outcome (createDirs target) fs = (.error fault, made) ∧
      e = .discovery (.io target fault) ∧ site = ⟨made, scope⟩) ∨
      ∃ made taken step rest report site₁, outcome (createDirs target) fs = (.ok (), made) ∧
        steps batch = taken ++ step :: rest ∧
        outcome (takeAll target (batch.map (·.shortName)) {} taken) ⟨made, scope⟩ =
          (.ok report, site₁) ∧
        Stops target (batch.map (·.shortName)) report site₁ step e site := by
  rcases hmake : outcome (createDirs target) fs with ⟨fault | ⟨⟩, made⟩
  · rw [outcome_run_of_error hmake] at h
    cases h
    exact .inl ⟨fault, made, rfl, rfl, rfl⟩
  · rw [outcome_run hmake] at h
    obtain ⟨taken, step, rest, report, site₁, hsteps, htaken, hstops⟩ := takeAll_of_error h
    exact .inr ⟨made, taken, step, rest, report, site₁, rfl, hsteps, htaken, hstops⟩

end Installation

end RealmBoot
