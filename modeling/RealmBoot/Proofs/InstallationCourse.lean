import Mathlib.Data.List.Infix
import RealmBoot.Proofs.InstallationAccount
import RealmBoot.Proofs.TakingSteps

/-!
# The Course of an Installation

An installation takes its steps one after another and keeps a report. This module says what the
report holds after any number of steps, in terms of the declarations met so far alone: which names
the batch has, and which names the scope has. From that it follows how the whole installation ends.

## Main results

* `Installation.take_spec`: one step keeps the report true to the steps taken, or ends the
  installation with a copy that fails or a declaration that cannot be met.
* `Installation.takeAll_spec`: the same for all steps that are left.
* `Installation.run_decided`: what an installation ends in is decided by the first declaration that
  cannot be met, if there is one, and else by what the batch declares.
-/

namespace RealmBoot

namespace Installation

/-- A computation ended because an archive could not be copied. -/
def CopyFails {α : Type} (result : Except ResolutionError α) : Prop :=
  ∃ source target fault, result = .error (.copy source target fault)

variable {target : Path} {names : List String} {scope : Scope} {seen : FileSystem}
variable {own : List Descriptor} {declarations : List (Dependency × String)}
  {report : InstallationReport} {declaration : Dependency × String}

/-! ### One step -/

/-- The scope of an installation is the one it was given, frozen or not. -/
def Holds (scope : Scope) (seen : FileSystem) (site : Site) : Prop :=
  site.scope = scope ∨
    site.scope = { scope with index? := some (Scope.indexOf seen scope.archives.toList) }

/-- A site that holds the scope answers as the scope does. -/
theorem Holds.answers {site : Site} (h : Holds scope seen site)
    (hanswers : scope.Answers site.files (Scope.indexOf seen scope.archives.toList)) :
    site.scope.Answers site.files (Scope.indexOf seen scope.archives.toList) := by
  rcases h with hscope | hscope
  · rwa [hscope]
  · exact .inl (by rw [hscope])

/-- A lookup leaves a site that holds the scope. -/
theorem Holds.frozen {site : Site} (h : Holds scope seen site) (files : FileSystem) :
    Holds scope seen ⟨files,
      { site.scope with index? := some (Scope.indexOf seen scope.archives.toList) }⟩ := by
  rcases h with hscope | hscope
  · exact .inr (by rw [hscope])
  · exact .inr (by rw [hscope])

/-- A part of an installation has ended as its declarations say: a copy failed, or the first
declaration that cannot be met is reported, or there is none and the report accounts for all. -/
def Decided (target : Path) (names : List String) (scope : Scope) (seen : FileSystem)
    (own : List Descriptor) (before more : List (Dependency × String))
    (result : Except ResolutionError InstallationReport) : Prop :=
  CopyFails result ∨
    match more.find? (unmet names scope seen) with
    | some d => result = .error (.missingDependency d.1.text d.2 scope.text)
    | none => ∃ report, result = .ok report ∧
        Accounts target names scope seen own (before ++ more) report

namespace Decided

/-- A declaration that can be met leaves a report that accounts for it. -/
theorem of_met (hmet : unmet names scope seen declaration = false)
    (h : Accounts target names scope seen own (declarations ++ [declaration]) report) :
    Decided target names scope seen own declarations [declaration] (.ok report) := by
  refine .inr ?_
  rw [List.find?_singleton, hmet]
  exact ⟨report, rfl, h⟩

/-- A declaration that cannot be met is reported. -/
theorem of_unmet (hunmet : unmet names scope seen declaration = true) :
    Decided target names scope seen own declarations [declaration]
      (.error (.missingDependency declaration.1.text declaration.2 scope.text)) := by
  refine .inr ?_
  rw [List.find?_singleton, hunmet]
  rfl

/-- Two parts of an installation after one another: the second goes on from a report that accounts
for the first. -/
theorem bind {own own' : List Descriptor} {before first second : List (Dependency × String)}
    {x : SiteAction InstallationReport} {f : InstallationReport → SiteAction InstallationReport}
    {site : Site} (hfirst : Decided target names scope seen own before first (outcome x site).1)
    (hsecond : ∀ report site', outcome x site = (.ok report, site') →
      Accounts target names scope seen own (before ++ first) report →
      Decided target names scope seen own' (before ++ first) second (outcome (f report) site').1) :
    Decided target names scope seen own' before (first ++ second) (outcome (x >>= f) site).1 := by
  rcases hx : outcome x site with ⟨result, site'⟩
  rw [hx] at hfirst
  rcases hfirst with ⟨source, dest, fault, rfl⟩ | hfirst
  · rw [outcome_bind_of_error hx]
    exact .inl ⟨source, dest, fault, rfl⟩
  · cases hfind : first.find? (unmet names scope seen) with
    | some d =>
        rw [hfind] at hfirst
        obtain rfl := hfirst
        rw [outcome_bind_of_error hx]
        refine .inr ?_
        rw [List.find?_append, hfind]
        rfl
    | none =>
        rw [hfind] at hfirst
        obtain ⟨report, rfl, hreport⟩ := hfirst
        rw [outcome_bind_of_ok hx]
        rcases hsecond report site' hx hreport with hfail | hrest
        · exact .inl hfail
        · refine .inr ?_
          rwa [List.find?_append, hfind, Option.none_or, ← List.append_assoc]

end Decided

/-- **One step of an installation.** -/
theorem take_spec {site : Site} (hscope : Holds scope seen site)
    (hanswers : scope.Answers site.files (Scope.indexOf seen scope.archives.toList))
    (hreport : Accounts target names scope seen own declarations report) (step : Step) :
    Decided target names scope seen (own ++ step.own?.toList) declarations step.declared?.toList
        (outcome (take target names report step) site).1 ∧
      Holds scope seen (outcome (take target names report step) site).2 := by
  have hsite := hscope.answers hanswers
  have hunsettled : ∀ {d : Dependency}, ¬ settled names report d.name = true →
      scope.provider? seen d.name = none → nowhere names scope seen d.name = true := by
    intro d hs hnone
    rw [hreport.settled_iff, not_or] at hs
    rw [nowhere_iff, Scope.knows_eq_isSome_provider?, hnone]
    exact ⟨hs.1, rfl⟩
  rcases take_cases target names report site step with
    ⟨report', site', hok, hadvances⟩ | ⟨e, site', hfail, hstops⟩
  · rw [hok]
    cases hadvances with
    | @own d i files hplaced =>
        obtain ⟨name, source, dest, upToDate⟩ := i
        obtain ⟨⟨rfl, rfl, rfl⟩, -⟩ := placed_of_install hplaced
        refine ⟨.inr ⟨_, rfl, ?_⟩, hscope⟩
        simpa using hreport.own_step d upToDate
    | @settled d requiredBy hsettled =>
        have hmet : unmet names scope seen (d, requiredBy) = false := by
          simp [unmet, hreport.not_nowhere_of_settled hsettled]
        simp only [Step.own?, Step.declared?, Option.toList_none, Option.toList_some,
          List.append_nil]
        exact ⟨.of_met hmet (hreport.settled_step hsettled), hscope⟩
    | @fetched d requiredBy index a i files hs hindex hfound hplaced =>
        obtain rfl := hindex.unique hsite
        rw [Scope.lookup_indexOf] at hfound
        obtain ⟨name, source, dest, upToDate⟩ := i
        obtain ⟨⟨rfl, rfl, rfl⟩, -⟩ := placed_of_install hplaced
        have hmet : unmet names scope seen (d, requiredBy) = false := by
          simp [unmet, nowhere, Scope.knows_eq_isSome_provider?, hfound]
        simp only [Step.own?, Step.declared?, Option.toList_none, Option.toList_some,
          List.append_nil]
        exact ⟨.of_met hmet (hreport.fetched_step hs hfound upToDate), hscope.frozen files⟩
    | @skipped d requiredBy index hs hindex hmissing hoptional =>
        obtain rfl := hindex.unique hsite
        rw [Scope.lookup_indexOf] at hmissing
        have hmet : unmet names scope seen (d, requiredBy) = false := by
          simp [unmet, hoptional]
        simp only [Step.own?, Step.declared?, Option.toList_none, Option.toList_some,
          List.append_nil]
        exact ⟨.of_met hmet (hreport.skipped_step (hunsettled hs hmissing) hoptional),
          hscope.frozen site.files⟩
  · rw [hfail]
    cases hstops with
    | own => exact ⟨.inl ⟨_, _, _, rfl⟩, hscope⟩
    | unreadable _ hfresh hunread =>
        rcases hsite with hfrozen | ⟨-, hread⟩
        · rw [hfresh] at hfrozen
          cases hfrozen
        · rw [hunread] at hread
          cases hread
    | fetched _ hindex =>
        obtain rfl := hindex.unique hsite
        exact ⟨.inl ⟨_, _, _, rfl⟩, hscope.frozen site.files⟩
    | @missing d requiredBy index hs hindex hmissing hrequired =>
        obtain rfl := hindex.unique hsite
        rw [Scope.lookup_indexOf] at hmissing
        have hunmet : unmet names scope seen (d, requiredBy) = true := by
          simp [unmet, hrequired, hunsettled hs hmissing]
        have htext : site.scope.text = scope.text := by
          rcases hscope with h | h <;> rw [h]
          rfl
        rw [htext]
        exact ⟨.of_unmet hunmet, hscope.frozen site.files⟩

/-! ### All steps -/

/-- No step writes to an archive of the scope: whichever first steps have been taken, the archives
read as they did before. -/
def SparesScope (target : Path) (names : List String) (steps : List Step) (site : Site) : Prop :=
  ∀ taken, taken <+: steps → ∀ a ∈ site.scope.archives,
    (outcome (takeAll target names {} taken) site).2.files.read a.path = site.files.read a.path

/-- **All steps that are left.** By induction on them: the report accounts for those taken, and the
scope answers as it did at the start, since no step wrote to its archives. -/
theorem takeAll_spec {start site : Site} {taken rest : List Step}
    (hanswers : start.scope.Answers start.files (Scope.indexOf seen start.scope.archives.toList))
    (hspared : SparesScope target names (taken ++ rest) start)
    (hcourse : outcome (takeAll target names {} taken) start = (.ok report, site))
    (hscope : Holds start.scope seen site)
    (hreport : Accounts target names start.scope seen own declarations report) :
    Decided target names start.scope seen (own ++ rest.filterMap Step.own?) declarations
      (rest.filterMap Step.declared?) (outcome (takeAll target names report rest) site).1 := by
  induction rest generalizing taken report site own declarations with
  | nil =>
      refine .inr ⟨report, rfl, ?_⟩
      simpa using hreport
  | cons step rest ih =>
      have hstill : start.scope.Answers site.files
          (Scope.indexOf seen start.scope.archives.toList) := by
        have hread := hspared taken (List.prefix_append _ _)
        rw [hcourse] at hread
        rwa [Scope.Answers, Scope.readIndex_congr hread]
      have hown : (step :: rest).filterMap Step.own? =
          step.own?.toList ++ rest.filterMap Step.own? := by
        cases step <;> rfl
      have hdeclared : (step :: rest).filterMap Step.declared? =
          step.declared?.toList ++ rest.filterMap Step.declared? := by
        cases step <;> rfl
      obtain ⟨hdecided, hscope₁⟩ := take_spec hscope hstill hreport step
      rw [takeAll, hown, hdeclared, ← List.append_assoc]
      refine hdecided.bind fun report₁ site₁ htake hreport₁ => ?_
      rw [htake] at hscope₁
      have hcourse₁ : outcome (takeAll target names {} (taken ++ [step])) start =
          (.ok report₁, site₁) := by
        rw [outcome_takeAll_append hcourse, takeAll, outcome_bind_of_ok htake]
        rfl
      have hspared₁ : SparesScope target names (taken ++ [step] ++ rest) start := by
        rwa [List.append_assoc, List.singleton_append]
      exact ih hspared₁ hcourse₁ hscope₁ hreport₁

/-- **What an installation ends in.** Suppose that the target directory can be made, that no copy
fails, that no step writes to an archive of the scope, and that every manifest of the scope could be
read when the scope read them, or can be read now. Then the installation ends with a missing
dependency exactly if some declaration cannot be met, and names the first one; otherwise it ends
with a report that accounts for the whole batch and for all it declares. -/
theorem run_decided {batch : List Descriptor} {fs fs₁ : FileSystem}
    (hseen : scope.AnswersFrom fs seen)
    (hreadable : ∀ a ∈ scope.archives, ∃ m, Manifest.ofArchive seen a = .ok m)
    (hdir : outcome (FileSystem.createDirs target) fs = (.ok (), fs₁))
    (hcopies : ¬ CopyFails (outcome (run target batch) ⟨fs, scope⟩).1)
    (hspared : SparesScope target (batch.map (·.shortName)) (steps batch) ⟨fs₁, scope⟩) :
    let names := batch.map (·.shortName)
    let result := (outcome (run target batch) ⟨fs, scope⟩).1
    ((∃ dependency requiredBy shown,
        result = .error (.missingDependency dependency requiredBy shown)) ↔
      ∃ d ∈ batch, ∃ dependency ∈ d.dependencies, dependency.optional = false ∧
        (∀ d' ∈ batch, d'.shortName ≠ dependency.name) ∧
        ∀ a ∈ scope.archives, a.shortNameIn seen ≠ some dependency.name) ∧
    match (declared batch).find? (unmet names scope seen) with
    | some (dependency, requiredBy) =>
      result = .error (.missingDependency dependency.text requiredBy scope.text)
    | none => ∃ report, result = .ok report ∧
        Accounts target names scope seen batch (declared batch) report := by
  intro names result
  have hgrown : FileSystem.Grows (fun _ => False) fs fs₁ := by
    have h : FileSystem.Grows (fun _ => False) fs (outcome (FileSystem.createDirs target) fs).2 :=
      FileSystem.grows_createDirs target fs
    rwa [hdir] at h
  have hanswers := hseen.answers hreadable hgrown
  have hdecided : Decided target names scope seen ([] ++ (steps batch).filterMap Step.own?) []
      ((steps batch).filterMap Step.declared?) result := by
    have hspared' : SparesScope target names ([] ++ steps batch) ⟨fs₁, scope⟩ := hspared
    have hsteps := takeAll_spec hanswers hspared' rfl (.inl rfl) .nil
    rwa [← outcome_run hdir] at hsteps
  rw [filterMap_own_steps, filterMap_declared_steps, List.nil_append] at hdecided
  have hmatch := hdecided.resolve_left hcopies
  cases hfind : (declared batch).find? (unmet names scope seen) with
  | some d =>
      obtain ⟨dependency, requiredBy⟩ := d
      rw [hfind] at hmatch
      have hunmet := unmet_iff.mp (List.find?_some hfind)
      obtain ⟨d, hd, hmem, -⟩ := mem_declared.mp (List.mem_of_find?_eq_some hfind)
      refine ⟨?_, hmatch⟩
      constructor
      · intro _
        exact ⟨d, hd, dependency, hmem, hunmet⟩
      · intro _
        exact ⟨_, _, _, hmatch⟩
  | none =>
      rw [hfind] at hmatch
      obtain ⟨report, hok, hreport⟩ := hmatch
      refine ⟨?_, report, hok, hreport⟩
      constructor
      · rintro ⟨dependency, requiredBy, shown, herror⟩
        rw [hok] at herror
        cases herror
      · rintro ⟨d, hd, dependency, hmem, hunmet⟩
        have hdeclared : (dependency, d.shortName) ∈ declared batch :=
          mem_declared.mpr ⟨d, hd, hmem, rfl⟩
        exact absurd (unmet_iff.mpr hunmet) (List.find?_eq_none.mp hfind _ hdeclared)

/-- Two modules and, in the scope, two archives with the short name that both modules ask for. -/
def sharedFiles : FileSystem :=
  { root := [
      ("modules", .directory [
        ("one.hpi", .file "Short-Name: one\n".toUTF8 (.at 1)),
        ("two.hpi", .file "Short-Name: two\n".toUTF8 (.at 2))]),
      ("scope", .directory [
        ("z.jpi", .file "Short-Name: core\n".toUTF8 (.at 3)),
        ("a.jpi", .file "Short-Name: core\n".toUTF8 (.at 4))])] }

/-- The scope of the two archives. -/
def sharedScope : Scope := .ofArchives [⟨["scope", "z.jpi"]⟩, ⟨["scope", "a.jpi"]⟩]

/-- The two modules, the first of which needs the second. Both need the archive, one of them
optionally, and both would take what is found nowhere. -/
def sharedBatch : List Descriptor :=
  [{ archive := ⟨["modules", "one.hpi"]⟩
     shortName := "one"
     version? := none
     dependencies := [⟨"two", "1", false⟩, ⟨"gone", "1", true⟩, ⟨"core", "1", true⟩] },
   { archive := ⟨["modules", "two.hpi"]⟩
     shortName := "two"
     version? := none
     dependencies := [⟨"core", "2", false⟩, ⟨"gone", "2", true⟩] }]

/-- What installing the two modules reports. -/
def sharedReport : InstallationReport :=
  { batch := [⟨"one", ⟨"/modules/one.hpi"⟩, ⟨"/plugins/one.jpl"⟩, false⟩,
      ⟨"two", ⟨"/modules/two.hpi"⟩, ⟨"/plugins/two.jpl"⟩, false⟩]
    dependencies := [⟨"core", ⟨"/scope/a.jpi"⟩, ⟨"/plugins/core.jpi"⟩, false⟩]
    skipped := [⟨"gone", "1", true⟩, ⟨"gone", "2", true⟩] }

/-- The files once the directory was made. -/
def sharedStart : FileSystem := (outcome (FileSystem.createDirs ⟨"/plugins"⟩) sharedFiles).2

/-- The two modules are installed with the lesser archive, which is copied once. -/
theorem run_decided_sharedBatch :
    (outcome (run ⟨"/plugins"⟩ sharedBatch) ⟨sharedFiles, sharedScope⟩).1 = .ok sharedReport ∧
      Accounts ⟨"/plugins"⟩ ["one", "two"] sharedScope sharedFiles sharedBatch
        (declared sharedBatch) sharedReport := by
  have hseen : sharedScope.AnswersFrom sharedFiles sharedFiles := by
    constructor
    · intro _
      rfl
    · intro index hindex
      cases hindex
  have hrun : (outcome (run ⟨"/plugins"⟩ sharedBatch) ⟨sharedFiles, sharedScope⟩).1 =
      .ok sharedReport := by decide +kernel
  have hreadable : ∀ a ∈ sharedScope.archives, ∃ m, Manifest.ofArchive sharedFiles a = .ok m := by
    have hall : ∀ a ∈ sharedScope.archives.toList,
        (Manifest.ofArchive sharedFiles a).toOption.isSome = true := by decide
    intro a ha
    have hsome := hall a ha
    cases hm : Manifest.ofArchive sharedFiles a with
    | ok m => exact ⟨m, rfl⟩
    | error e => simp [hm, Except.toOption] at hsome
  have hdir : outcome (FileSystem.createDirs ⟨"/plugins"⟩) sharedFiles = (.ok (), sharedStart) :=
    Prod.ext (by decide) rfl
  have hspared : SparesScope ⟨"/plugins"⟩ (sharedBatch.map (·.shortName)) (steps sharedBatch)
      ⟨sharedStart, sharedScope⟩ := by
    have hall : ∀ taken ∈ (steps sharedBatch).inits, ∀ a ∈ sharedScope.archives.toList,
        (outcome (takeAll ⟨"/plugins"⟩ ["one", "two"] {} taken)
          ⟨sharedStart, sharedScope⟩).2.files.read a.path = sharedStart.read a.path := by
      decide +kernel
    intro taken htaken
    exact hall taken ((List.mem_inits taken _).mpr htaken)
  have hcopies : ¬ CopyFails
      (outcome (run ⟨"/plugins"⟩ sharedBatch) ⟨sharedFiles, sharedScope⟩).1 := by
    rintro ⟨source, dest, fault, hfail⟩
    rw [hrun] at hfail
    cases hfail
  have hnone : (declared sharedBatch).find?
      (unmet (sharedBatch.map (·.shortName)) sharedScope sharedFiles) = none := by decide
  obtain ⟨-, hreport⟩ := run_decided hseen hreadable hdir hcopies hspared
  rw [hnone] at hreport
  obtain ⟨report, hok, haccounts⟩ := hreport
  rw [hrun] at hok
  cases hok
  exact ⟨hrun, haccounts⟩

end Installation

end RealmBoot
