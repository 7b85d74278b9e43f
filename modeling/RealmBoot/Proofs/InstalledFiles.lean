import RealmBoot.Proofs.InstallationSteps
import RealmBoot.Proofs.WalkCourse

/-!
# The Files of an Installation

Every archive goes into the target directory under a file name of its own: its short name with an
ending that tells the archives of the batch from what they depend on. As long as no name has a slash
and no link stands in the directory, the installs of one run do not get into each other's way. This
module shows so, and says what the installed files hold after a run.

## Main results

* `Installation.nodup_targets`: no two archives of an installation go to the same path.
* `Installation.goesUnder_of_placements`: each of them goes under a name of the directory.
* `Installation.run_records`: what the files hold after an installation that succeeds.
-/

namespace RealmBoot

open FileSystem

namespace Installation

variable {target : Path} {names : List String} {index : ShortNameIndex} {taken : List Step}
  {step : Step} {batch : List Descriptor} {fs made : FileSystem} {scope : Scope} {site : Site}
  {report : InstallationReport} {records : List Installed} {before : List Step} {p : Placement}

/-! ### File names -/

/-- The file name under which a step places an archive. -/
def Step.fileName : Step → String
  | .own d => d.shortName ++ ".jpl"
  | .declared d _ => d.name ++ ".jpi"

/-- The steps of a batch are for its modules and their dependencies. -/
theorem mem_steps :
    step ∈ steps batch ↔ ∃ d ∈ batch, step = .own d ∨
      ∃ dependency ∈ d.dependencies, step = .declared dependency d.shortName := by
  simp only [steps, List.mem_flatMap, List.mem_cons, List.mem_map, eq_comm]

/-- No name of a batch, or of what it declares, has a slash. -/
def PlainNames (batch : List Descriptor) : Prop :=
  ∀ d ∈ batch, '/' ∉ d.shortName.toList ∧
    ∀ dependency ∈ d.dependencies, '/' ∉ dependency.name.toList

instance (batch : List Descriptor) : Decidable (PlainNames batch) :=
  inferInstanceAs (Decidable (∀ d ∈ batch, '/' ∉ d.shortName.toList ∧
    ∀ dependency ∈ d.dependencies, '/' ∉ dependency.name.toList))

/-- Names without slashes make file names. -/
theorem PlainNames.isName (h : PlainNames batch) (hstep : step ∈ steps batch) :
    Location.IsName step.fileName := by
  obtain ⟨d, hd, rfl | ⟨dependency, hdependency, rfl⟩⟩ := mem_steps.mp hstep
  · exact Location.isName_append (h d hd).1 (by decide) (by decide)
  · exact Location.isName_append ((h d hd).2 dependency hdependency) (by decide) (by decide)

/-- The endings tell archives of the batch from dependencies, and the names among themselves. -/
theorem fileName_eq {step' : Step} (h : step.fileName = step'.fileName) :
    (∃ d d', step = .own d ∧ step' = .own d' ∧ d.shortName = d'.shortName) ∨
      ∃ d d' requiredBy requiredBy', step = .declared d requiredBy ∧
        step' = .declared d' requiredBy' ∧ d.name = d'.name := by
  have hends : ∀ a b x y : String, x.toList.length = y.toList.length → a ++ x = b ++ y →
      a = b ∧ x = y := by
    intro a b x y hlength heq
    have hchars := congrArg String.toList heq
    rw [String.toList_append, String.toList_append] at hchars
    obtain ⟨hfront, hback⟩ := List.append_inj' hchars hlength
    exact ⟨String.toList_inj.mp hfront, String.toList_inj.mp hback⟩
  cases step with
  | own d =>
      cases step' with
      | own d' => exact .inl ⟨d, d', rfl, rfl, (hends _ _ _ _ rfl h).1⟩
      | declared d' => exact absurd (hends _ _ ".jpl" ".jpi" (by decide) h).2 (by decide)
  | declared d requiredBy =>
      cases step' with
      | own d' => exact absurd (hends _ _ ".jpi" ".jpl" (by decide) h).2 (by decide)
      | declared d' requiredBy' => exact .inr ⟨d, d', _, _, rfl, rfl, (hends _ _ _ _ rfl h).1⟩

/-! ### Paths -/

/-- An archive is placed under the file name of its step. -/
theorem target_of_placement? (h : step.placement? target names index before = some p) :
    p.target = target.child step.fileName := by
  cases step with
  | own d =>
      cases h
      rfl
  | declared d requiredBy =>
      rw [Step.placement?] at h
      split_ifs at h
      obtain ⟨a, -, rfl⟩ := Option.map_eq_some_iff.mp h
      rfl

/-- What is placed is placed for one of the steps. -/
theorem exists_step_of_mem_placements (h : p ∈ placements target names index before taken) :
    ∃ earlier step later, taken = earlier ++ step :: later ∧
      step.placement? target names index (before ++ earlier) = some p := by
  induction taken generalizing before with
  | nil => cases h
  | cons step taken ih =>
      rw [placements, List.mem_append, Option.mem_toList] at h
      rcases h with h | h
      · exact ⟨[], step, taken, rfl, by simpa using h⟩
      · obtain ⟨earlier, step', later, rfl, hp⟩ := ih h
        exact ⟨step :: earlier, step', later, rfl, by simpa using hp⟩

/-- A name goes behind a path in one way. -/
theorem child_inj {s t : String} (hs : Location.IsName s) (ht : Location.IsName t)
    (h : target.child s = target.child t) : s = t := by
  have hsegments := congrArg Path.segments h
  rw [Path.segments_child hs, Path.segments_child ht] at hsegments
  simpa using hsegments

/-- **No two archives of an installation go to the same path,** if no two of the batch have the same
short name. The same path would be one file name, hence a name of the batch twice, or a name that
was declared before. -/
theorem nodup_targets (hnames : ∀ step ∈ taken, Location.IsName step.fileName)
    (hdistinct : ((taken.filterMap Step.own?).map (·.shortName)).Nodup) :
    ((placements target names index [] taken).map (·.target)).Nodup := by
  induction taken using List.reverseRecOn with
  | nil => exact List.nodup_nil
  | append_singleton taken step ih =>
      rw [List.filterMap_append, List.map_append] at hdistinct
      have hbefore := ih (fun s hs => hnames s (List.mem_append_left _ hs))
        (List.nodup_append.mp hdistinct).1
      rw [placements_concat, List.map_append]
      cases hp : step.placement? target names index taken with
      | none => simpa using hbefore
      | some p =>
          rw [Option.toList_some, List.map_singleton, List.nodup_append]
          refine ⟨hbefore, by simp, ?_⟩
          rintro path hpath _ hlast rfl
          obtain rfl := List.mem_singleton.mp hlast
          obtain ⟨p', hp', htargets⟩ := List.mem_map.mp hpath
          obtain ⟨earlier, step', later, rfl, hstep'⟩ := exists_step_of_mem_placements hp'
          rw [target_of_placement? hp, target_of_placement? hstep'] at htargets
          have hsame := child_inj (hnames _ (by simp)) (hnames _ (by simp)) htargets
          rcases fileName_eq hsame with ⟨d, d', rfl, rfl, hname⟩ | ⟨d, d', _, _, rfl, rfl, hname⟩
          · refine (List.nodup_append.mp hdistinct).2.2 d.shortName ?_ d'.shortName ?_ hname
            · simp
            · simp
          · rw [Step.placement?, if_pos] at hp
            · cases hp
            · refine .inr ?_
              rw [← hname]
              simp [declaredNames]

/-! ### Archives under the names of a directory -/

/-- No link stands in the directory a path leads to. -/
def NoLinksIn (fs : FileSystem) (target : Path) : Prop :=
  ∀ q, fs.Receives target q → ∀ e ∈ fs.children q, e.2 ≠ .link

/-- In a directory without links no name is that of a link. -/
theorem NoLinksIn.node? (h : NoLinksIn fs target) {q : Place} (hq : fs.Receives target q)
    (s : String) (linked : Path) : fs.node? (q ++ [s]) ≠ some (.link linked) := by
  intro hlink
  exact h q hq (s, .link) (mem_children.mpr ⟨_, hlink, rfl⟩) rfl

/-- **Each archive goes under a name of the directory,** if its file name is one and no link stands
there. -/
theorem goesUnder_of_placements
    (hrecords : records.map (·.placement) = placements target names index [] taken)
    (hnames : ∀ step ∈ taken, Location.IsName step.fileName)
    (hnoLink : ∀ step ∈ taken, ∀ q, made.Receives target q → ∀ linked,
      made.node? (q ++ [step.fileName]) ≠ some (.link linked)) :
    ∀ i ∈ records, ∃ s, GoesUnder made target i s := by
  intro i hi
  have hplacement : i.placement ∈ placements target names index [] taken :=
    hrecords ▸ List.mem_map_of_mem hi
  obtain ⟨earlier, step, later, rfl, hstep⟩ := exists_step_of_mem_placements hplacement
  have hmem : step ∈ earlier ++ step :: later := by simp
  exact ⟨step.fileName, hnames step hmem, target_of_placement? hstep, hnoLink step hmem⟩

/-- The archives of an installation are placed under different names of the target directory, if no
two of the batch have the same short name, no name has a slash and no link stands there. -/
theorem separate_of_placements (hmade : outcome (createDirs target) fs = (.ok (), made))
    (hrecords : records.map (·.placement) = placements target names index [] (steps batch))
    (hdistinct : (batch.map (·.shortName)).Nodup) (hplain : PlainNames batch)
    (hnoLinks : NoLinksIn made target) : Separate made target records where
  directory := isDirectory_of_createDirs hmade
  under := goesUnder_of_placements hrecords (fun _ => hplain.isName)
    fun step _ q hq linked => hnoLinks.node? hq _ linked
  distinct := by
    have htargets : ((placements target names index [] (steps batch)).map (·.target)).Nodup :=
      nodup_targets (fun _ => hplain.isName) (by rwa [filterMap_own_steps])
    rwa [← hrecords, List.map_map] at htargets

/-! ### After an installation -/

/-- The course of an installation that succeeds. The index is that of the scope in the end. -/
theorem course_of_run (hmade : outcome (createDirs target) fs = (.ok (), made))
    (hrun : outcome (run target batch) ⟨fs, scope⟩ = (.ok report, site)) :
    Course target (batch.map (·.shortName)) (site.scope.index?.getD ∅) ⟨made, scope⟩
      (steps batch) report site := by
  rw [outcome_run hmade] at hrun
  exact course_of_takeAll hrun fun frozen h => by rw [h, Option.getD_some]

/-- An installation has to do with regular files only: whatever stands in the target directory is
one, and no archive is a directory. -/
structure Regular (fs : FileSystem) (target : Path) (batch : List Descriptor) (scope : Scope) :
    Prop where
  /-- Whatever stands in the target directory is a regular file. -/
  held : ∀ q, fs.Receives target q → ∀ e ∈ fs.children q, e.2 = .file
  /-- No archive of the batch is a directory. -/
  own : ∀ d ∈ batch, fs.isDirectory d.archive.path = false
  /-- No archive of the scope is a directory. -/
  searched : ∀ a ∈ scope.archives, fs.isDirectory a.path = false

/-- Where regular files stand only, no links do. -/
theorem Regular.noLinksIn (h : Regular fs target batch scope) : NoLinksIn fs target := by
  intro q hq e he hlink
  rw [h.held q hq e he] at hlink
  cases hlink

/-- **What the installed files hold.** Suppose that no two archives of a batch have the same short
name, that none of its names, and of those it declares, has a slash, and that the installation has
to do with regular files only. After an installation that succeeds, the file of each archive that is
reported has the time that the archive had at its turn, and its bytes; only that of an archive that
was up to date is the one that stood there before the installation, with that time. -/
theorem run_records (hmade : outcome (createDirs target) fs = (.ok (), made))
    (hrun : outcome (run target batch) ⟨fs, scope⟩ = (.ok report, site))
    (hdistinct : (batch.map (·.shortName)).Nodup) (hplain : PlainNames batch)
    (hregular : Regular made target batch scope) :
    ∃ records, (report.batch ++ report.dependencies).Perm records ∧
      Places made records site.files ∧
      ∀ before i after, records = before ++ i :: after →
        ∃ turn bytes held time, Places made before turn ∧
          turn.stat i.source = .ok (.file bytes time) ∧
          site.files.stat i.target = .ok (.file held time) ∧
          (if i.upToDate then made.stat i.target = .ok (.file held time) else held = bytes) ∧
          (made.Apart target i.source → site.files.stat i.source = .ok (.file bytes time)) := by
  obtain ⟨records, hplaces, hrecords, hperm⟩ := (course_of_run hmade hrun).placed
  refine ⟨records, hperm, hplaces, ?_⟩
  rintro before i after rfl
  exact hplaces.recorded (separate_of_placements hmade hrecords hdistinct hplain
    hregular.noLinksIn)

/-- A module that needs an archive, and a file of the same time under the name it is installed as.
-/
def staleFiles : FileSystem :=
  { root := [
      ("modules", .directory [("a.hpi", .file "Short-Name: a\nVersion: 2\n".toUTF8 (.at 1))]),
      ("plugins", .directory [("a.jpl", .file "Short-Name: a\nVersion: 1\n".toUTF8 (.at 1))]),
      ("scope", .directory [("b.jpi", .file "Short-Name: b\n".toUTF8 (.at 2))])] }

/-- The module. -/
def staleBatch : List Descriptor :=
  [{ archive := ⟨["modules", "a.hpi"]⟩
     shortName := "a"
     version? := some "2"
     dependencies := [⟨"b", "1", false⟩] }]

/-- The archive it needs. -/
def staleScope : Scope := .ofArchives [⟨["scope", "b.jpi"]⟩]

/-- What installing the module reports: it is taken for installed. -/
def staleReport : InstallationReport :=
  { batch := [⟨"a", ⟨"/modules/a.hpi"⟩, ⟨"/plugins/a.jpl"⟩, true⟩]
    dependencies := [⟨"b", ⟨"/scope/b.jpi"⟩, ⟨"/plugins/b.jpi"⟩, false⟩] }

/-- What is there afterwards. -/
def staleSite : Site := (outcome (run ⟨"/plugins"⟩ staleBatch) ⟨staleFiles, staleScope⟩).2

/-- The target is there already. -/
theorem staleFiles_made : outcome (createDirs ⟨"/plugins"⟩) staleFiles = (.ok (), staleFiles) :=
  createDirs_of_isDirectory (.inr (by decide))

/-- The run leaves the file as it is and reports it up to date. -/
theorem staleFiles_run :
    outcome (run ⟨"/plugins"⟩ staleBatch) ⟨staleFiles, staleScope⟩ = (.ok staleReport, staleSite) :=
  outcome_of_result (by decide +kernel)

/-- The files go into the directory at the target. -/
theorem staleFiles_receives : staleFiles.Receives ⟨"/plugins"⟩ ["plugins"] :=
  ⟨by decide, by decide⟩

/-- It holds nothing but files. -/
theorem staleFiles_held : ∀ q, staleFiles.Receives ⟨"/plugins"⟩ q →
    ∀ e ∈ staleFiles.children q, e.2 = .file :=
  staleFiles_receives.all (by decide)

/-- Neither is any of the archives a directory. -/
theorem staleFiles_regular : Regular staleFiles ⟨"/plugins"⟩ staleBatch staleScope where
  held := staleFiles_held
  own := by decide
  searched := by
    have hall : ∀ a ∈ staleScope.archives.toList, staleFiles.isDirectory a.path = false := by
      decide
    exact hall

/-- No archive of the scope is a file of the target. -/
theorem staleScope_apart : ∀ a ∈ staleScope.archives, staleFiles.Apart ⟨"/plugins"⟩ a.path := by
  have hall : ∀ a ∈ staleScope.archives.toList,
      (staleFiles.place a.path).toOption.any (["plugins"].isPrefixOf ·) = false := by
    decide
  exact fun a ha => staleFiles_receives.apart (hall a ha)

/-- The file of the module stays, the archive it needs is copied. -/
theorem run_records_stale :
    ∃ records, (staleReport.batch ++ staleReport.dependencies).Perm records ∧
      Places staleFiles records staleSite.files ∧
      ∀ before i after, records = before ++ i :: after →
        ∃ turn bytes held time, Places staleFiles before turn ∧
          turn.stat i.source = .ok (.file bytes time) ∧
          staleSite.files.stat i.target = .ok (.file held time) ∧
          if i.upToDate then staleFiles.stat i.target = .ok (.file held time)
          else held = bytes := by
  have hdistinct : (staleBatch.map (·.shortName)).Nodup := by decide
  have hplain : PlainNames staleBatch := by decide
  obtain ⟨records, hperm, hplaces, hrecords⟩ :=
    run_records staleFiles_made staleFiles_run hdistinct hplain staleFiles_regular
  refine ⟨records, hperm, hplaces, fun before i after hsplit => ?_⟩
  obtain ⟨turn, bytes, held, time, hturn, harchive, hfile, hheld, -⟩ :=
    hrecords before i after hsplit
  exact ⟨turn, bytes, held, time, hturn, harchive, hfile, hheld⟩

/-- Installing would leave under each path that is reported what it leaves under the path of the
archive, whatever the directory held before. -/
def AlwaysAgrees (plain : List Descriptor → Prop) (agree : FileSystem → Installed → Prop) : Prop :=
  ∀ (target : Path) (batch : List Descriptor) (fs made : FileSystem) (scope : Scope)
    (report : InstallationReport) (site : Site),
    outcome (createDirs target) fs = (.ok (), made) →
    outcome (run target batch) ⟨fs, scope⟩ = (.ok report, site) →
    (batch.map (·.shortName)).Nodup → plain batch →
    Regular made target batch scope →
    (∀ a ∈ scope.archives, made.Apart target a.path) →
    ∀ i ∈ report.batch ++ report.dependencies, agree site.files i

/-- A module that needs two archives, the names of which lead to one file. -/
def twoNamesFiles : FileSystem :=
  { root := [
      ("modules", .directory [("m.hpi", .file "Short-Name: m\n".toUTF8 (.at 1))]),
      ("plugins", .directory []),
      ("scope", .directory [
        ("b.jpi", .file "Short-Name: b\n".toUTF8 (.at 2)),
        ("c.jpi", .file "Short-Name: ./b\n".toUTF8 (.at 3))])] }

/-- The module. -/
def twoNamesBatch : List Descriptor :=
  [{ archive := ⟨["modules", "m.hpi"]⟩
     shortName := "m"
     version? := none
     dependencies := [⟨"b", "1", false⟩, ⟨"./b", "1", false⟩] }]

/-- The archives it needs. -/
def twoNamesScope : Scope := .ofArchives [⟨["scope", "b.jpi"]⟩, ⟨["scope", "c.jpi"]⟩]

/-- What installing the module reports. -/
def twoNamesReport : InstallationReport :=
  { batch := [⟨"m", ⟨"/modules/m.hpi"⟩, ⟨"/plugins/m.jpl"⟩, false⟩]
    dependencies := [⟨"b", ⟨"/scope/b.jpi"⟩, ⟨"/plugins/b.jpi"⟩, false⟩,
      ⟨"./b", ⟨"/scope/c.jpi"⟩, ⟨"/plugins/./b.jpi"⟩, false⟩] }

/-- What is there afterwards. -/
def twoNamesSite : Site :=
  (outcome (run ⟨"/plugins"⟩ twoNamesBatch) ⟨twoNamesFiles, twoNamesScope⟩).2

/-- A file that was there with the time of the archive keeps its bytes, and two dependencies whose
names lead to one file cannot both have their time. -/
theorem not_alwaysAgrees :
    ¬ AlwaysAgrees PlainNames (fun fs i => fs.read i.target = fs.read i.source) ∧
      ¬ AlwaysAgrees (fun batch => ∀ d ∈ batch, '/' ∉ d.shortName.toList)
        (fun fs i => fs.modified i.target = fs.modified i.source) := by
  constructor
  · intro hagrees
    have hread := hagrees ⟨"/plugins"⟩ staleBatch staleFiles staleFiles staleScope staleReport
      staleSite staleFiles_made staleFiles_run (by decide) (by decide) staleFiles_regular
      staleScope_apart
      ⟨"a", ⟨"/modules/a.hpi"⟩, ⟨"/plugins/a.jpl"⟩, true⟩ (by decide)
    revert hread
    decide +kernel
  · intro hagrees
    have hmade : outcome (createDirs ⟨"/plugins"⟩) twoNamesFiles = (.ok (), twoNamesFiles) :=
      createDirs_of_isDirectory (.inr (by decide))
    have hrun : outcome (run ⟨"/plugins"⟩ twoNamesBatch) ⟨twoNamesFiles, twoNamesScope⟩ =
        (.ok twoNamesReport, twoNamesSite) := outcome_of_result (by decide +kernel)
    have hreceives : twoNamesFiles.Receives ⟨"/plugins"⟩ ["plugins"] :=
      ⟨by decide, by decide⟩
    have hregular : Regular twoNamesFiles ⟨"/plugins"⟩ twoNamesBatch twoNamesScope := by
      refine ⟨hreceives.all (by decide), by decide, ?_⟩
      have hall : ∀ a ∈ twoNamesScope.archives.toList,
          twoNamesFiles.isDirectory a.path = false := by
        decide
      exact hall
    have hapart : ∀ a ∈ twoNamesScope.archives, twoNamesFiles.Apart ⟨"/plugins"⟩ a.path := by
      have hall : ∀ a ∈ twoNamesScope.archives.toList,
          (twoNamesFiles.place a.path).toOption.any (["plugins"].isPrefixOf ·) = false := by
        decide
      exact fun a ha => hreceives.apart (hall a ha)
    have htime := hagrees ⟨"/plugins"⟩ twoNamesBatch twoNamesFiles twoNamesFiles twoNamesScope
      twoNamesReport twoNamesSite hmade hrun (by decide) (by decide) hregular hapart
      ⟨"b", ⟨"/scope/b.jpi"⟩, ⟨"/plugins/b.jpi"⟩, false⟩ (by decide)
    revert htime
    decide +kernel

end Installation

end RealmBoot
