import RealmBoot.Proofs.ConflictMasked
import RealmBoot.Proofs.Furnishing
import RealmBoot.Proofs.HomeCourse
import RealmBoot.Proofs.LaunchCourse

/-!
# The Footprint of a Launch

A launch ends with a status or with one of many errors, and there are a dozen points between making
the home and the end of the payload at which it can end. Wherever it does, it leaves the same
footprint: nothing that was there before is changed or removed, and what is added lies in the home
that was requested, or is a directory along the workspace of a run that got as far as making it.

## Main results

* `Payload.outcome_run_files`: what the runner changes.
* `Launch.runIn_adds`: what happens in a home adds to it, or makes the workspace.
* `Launch.run_footprint`: the footprint of a launch.
* `Launch.not_added_in_two_directories`: a workspace may lie in the home itself.
-/

namespace RealmBoot

open FileSystem

/-! ### The payload -/

namespace Payload

/-- The files are such that a run makes its workspace: the job name is allowed, the definition can
be read, and the definition of the source repository is there if one is given. -/
structure MakesWorkspace (o : RunOptions) (fs : FileSystem) (workspace : Path) : Prop where
  /-- The workspace is the one asked for. -/
  workspace : o.runWorkspace? = some workspace
  /-- No segment of the job name is rejected. -/
  jobName : JobName.firstRejection? o.jobName = none
  /-- The definition is a file. -/
  definition : fs.isFile (o.definitionFile fs) = true
  /-- It can be read as text. -/
  script : ∃ script, fs.readText (o.definitionFile fs) = .ok script
  /-- The definition of the source repository is a file, if there is one. -/
  scm : ∀ scm, o.scm? = some scm → fs.isFile scm = true

/-- Output does not touch the files. -/
theorem keeps_printLine {ε : Type} {fs : FileSystem} (text : String) :
    Keeps (fun w : World => w.files = fs) (Effect.printLine text : Effect ε Unit) := fun _ h => h

/-- The definition is read without a change, and only if it is a file with text in it. -/
theorem outcome_readDefinition (o : RunOptions) (w : World) :
    (∃ e, outcome (readDefinition o) w = (.error e, w)) ∨
      ∃ script, outcome (readDefinition o) w = (.ok script, w) ∧
        w.files.isFile (o.definitionFile w.files) = true ∧
        w.files.readText (o.definitionFile w.files) = .ok script := by
  rw [readDefinition]
  rw [outcome_bind_of_ok (outcome_files w)]
  dsimp only
  split_ifs with hfile
  · exact .inl ⟨_, rfl⟩
  cases hread : w.files.readText (o.definitionFile w.files) with
  | error fault => exact .inl ⟨_, rfl⟩
  | ok script => exact .inr ⟨script, rfl, by simpa using hfile, rfl⟩

/-- The source repository is looked at without a change. -/
theorem outcome_checkScm (o : RunOptions) (w : World) :
    (∃ e, outcome (checkScm o) w = (.error e, w)) ∨
      outcome (checkScm o) w = (.ok (), w) ∧
        ∀ scm, o.scm? = some scm → w.files.isFile scm = true := by
  rw [checkScm]
  cases o.scm? with
  | none => exact .inr ⟨rfl, by simp⟩
  | some scm =>
      dsimp only
      rw [outcome_bind_of_ok (outcome_files w)]
      split_ifs with hfile
      · exact .inr ⟨rfl, fun _ h => Option.some.inj h ▸ hfile⟩
      · exact .inl ⟨_, rfl⟩

/-- **What the runner changes**: it makes the workspace, if one is given and nothing stands against
it, and touches no file otherwise. -/
theorem outcome_run_files (s : Surroundings) (o : RunOptions) (w : World) :
    (outcome (run s o) w).2.files = w.files ∨
      ∃ workspace, MakesWorkspace o w.files workspace ∧
        (outcome (run s o) w).2.files = (outcome (createDirs workspace) w.files).2 := by
  rw [run]
  cases hjob : JobName.firstRejection? o.jobName with
  | some rejected => exact .inl rfl
  | none =>
      dsimp only
      rcases outcome_readDefinition o w with ⟨e, herror⟩ | ⟨script, hok, hfile, hread⟩
      · rw [outcome_bind_of_error herror]
        exact .inl rfl
      rw [outcome_bind_of_ok hok]
      rcases outcome_checkScm o w with ⟨e, herror⟩ | ⟨hok, hscm⟩
      · rw [outcome_bind_of_error herror]
        exact .inl rfl
      rw [outcome_bind_of_ok hok]
      have hlog : ∀ fs : FileSystem, Keeps (fun w : World => w.files = fs) (do
          unless o.noBuildLogs do (buildLog s o).forM Effect.printLine
          pure 0 : Effect RunError Int) := by
        intro fs
        dsimp only
        split_ifs
        · exact .pure _
        · exact Keeps.bind (.forM fun text _ => keeps_printLine text) fun _ => .pure _
      rw [makeWorkspace]
      cases hworkspace : o.runWorkspace? with
      | none => exact .inl (hlog w.files w rfl)
      | some workspace =>
          refine .inr ⟨workspace, ⟨hworkspace, hjob, hfile, ⟨script, hread⟩, hscm⟩, ?_⟩
          dsimp only
          rw [outcome_bind, outcome_effect_onFiles, outcome_mapFailure]
          cases (outcome (createDirs workspace) w.files).1 with
          | error fault => rfl
          | ok made => exact hlog _ _ rfl

/-- The linter touches no file. -/
theorem outcome_lint_files (o : RunOptions) (w : World) :
    (outcome (lint o) w).2.files = w.files := by
  rw [lint]
  rcases outcome_readDefinition o w with ⟨e, herror⟩ | ⟨script, hok, -, -⟩
  · rw [outcome_bind_of_error herror]
  rw [outcome_bind_of_ok hok]
  refine Keeps.bind (I := fun w' : World => w'.files = w.files) (keeps_printLine _) (fun _ => ?_)
    w rfl
  cases Lint.problems script with
  | nil => exact (keeps_printLine _).bind fun _ => .pure _
  | cons p problems => exact Keeps.bind (.forM fun p _ => keeps_printLine p.text) fun _ => .pure _

end Payload

namespace Launch

variable {s : Surroundings} {l : Launch} {layout : BootLayout} {settings : LaunchSettings}
  {w w' : World} {home : RunHome} {p q : Place} {n : Node}

/-! ### What happens in a home -/

/-- A run in a home makes a directory at a place: the home is furnished, the host boots, the run
makes its workspace, and the place is along that. -/
structure MakesAlong (l : Launch) (home : RunHome) (w : World) (p : Place) : Prop where
  /-- The payload is to run. -/
  mode : l.settings.mode = .run
  /-- It is reached, and makes the workspace. -/
  made : ∃ dir mid extensions workspace,
    outcome (furnish l home) w = (.ok dir, mid) ∧
    bootHost l.layout.extensionScanner dir mid.files = .ok extensions ∧
    Payload.MakesWorkspace l.settings.options mid.files workspace ∧
    (outcome (createDirs workspace) mid.files).2.Along workspace p

/-- What happens in a home may add to the files. -/
inductive AddsIn (l : Launch) (home : RunHome) (w : World) : Place → Node → Prop
  /-- What furnishes the home. -/
  | furniture {q rel : Place} {n : Node} (place : w.files.place home.path = .ok q)
      (furniture : PluginList.Furniture rel n) : AddsIn l home w (q ++ rel) n
  /-- A directory along the workspace. -/
  | workspace {p : Place} (makes : MakesAlong l home w p) : AddsIn l home w p .directory

/-- **What the call of the payload changes**: it makes the workspace, or touches no file. -/
theorem outcome_callPayload_files (s : Surroundings) (l : Launch) (extensions : Realm) (w : World) :
    (outcome (callPayload s l extensions) w).2.files = w.files ∨
      ∃ workspace, l.settings.mode = .run ∧
        Payload.MakesWorkspace l.settings.options w.files workspace ∧
        (outcome (callPayload s l extensions) w).2.files =
          (outcome (createDirs workspace) w.files).2 := by
  rw [outcome_callPayload]
  cases l.payloadResolver extensions (payloadContract l.settings.mode).typeName w.files with
  | error e => exact .inl rfl
  | ok r =>
      dsimp only
      cases r.resolve (payloadContract l.settings.mode).typeName with
      | error e => exact .inl rfl
      | ok d =>
          cases hmode : l.settings.mode with
          | lint => exact .inl (Payload.outcome_lint_files _ w)
          | run =>
              rcases Payload.outcome_run_files s l.settings.options w with
                hsame | ⟨workspace, hmakes, hfiles⟩
              · exact .inl hsame
              · exact .inr ⟨workspace, rfl, hmakes, hfiles⟩

/-- **What happens in a home** adds to it what furnishes it, and to the rest of the files at most
directories along the workspace. -/
theorem runIn_adds (s : Surroundings) (l : Launch) (home : RunHome) (w : World)
    (hnamed : w.files.Named)
    (hwork : w.files.WorkDirStands)
    (hhome : w.files.CanHouse home.path) :
    Grows (fun _ => False) w.files (outcome (runIn s l home) w).2.files ∧
      ∀ {p n}, (outcome (runIn s l home) w).2.files.node? p = some n →
        w.files.node? p = some n ∨ AddsIn l home w p n := by
  have hfurnished : GrowsBelow PluginList.Furniture home.path w.files
      (outcome (furnish l home) w).2.files := furnish_growsBelow hnamed hwork hhome
  rw [runIn]
  rw [outcome_bind]
  rcases hfurnish : outcome (furnish l home) w with ⟨result, mid⟩
  rw [hfurnish] at hfurnished
  have hadded : ∀ {p n}, mid.files.node? p = some n →
      w.files.node? p = some n ∨ AddsIn l home w p n := by
    intro p n hn
    rcases hfurnished.added hn with hold | ⟨q, rel, hplace, rfl, hrel⟩
    · exact .inl hold
    · exact .inr (.furniture hplace hrel)
  cases result with
  | error e => exact ⟨hfurnished.grows, hadded⟩
  | ok dir =>
      dsimp only
      rw [outcome_bind_of_ok (outcome_files mid)]
      cases hboot : bootHost l.layout.extensionScanner dir mid.files with
      | error e => exact ⟨hfurnished.grows, hadded⟩
      | ok extensions =>
          dsimp only
          rcases outcome_callPayload_files s l extensions mid with
            hsame | ⟨workspace, hmode, hmakes, hfiles⟩
          · rw [hsame]
            exact ⟨hfurnished.grows, hadded⟩
          · obtain ⟨hgrows, halong⟩ := createDirs_along workspace mid.files
            rw [hfiles]
            refine ⟨hfurnished.grows.trans hgrows, fun {p n} hn => ?_⟩
            rcases halong p n hn with hold | ⟨rfl, hp⟩
            · exact hadded hold
            · exact .inr (.workspace ⟨hmode, dir, mid, extensions, workspace, hfurnish, hboot,
                hmakes, hp⟩)

/-! ### The whole launch -/

/-- What a launch may add to the files. -/
inductive Adds (s : Surroundings) (layout : BootLayout) (settings : LaunchSettings) (w : World) :
    Place → Node → Prop
  /-- Something in the directory of the hooks or in that of the modules of the home requested. -/
  | furniture {dir : Path} {q : Place} {name : String} {rest : List String} {n : Node}
      (requested : settings.runHome? = some dir) (home : w.files.place dir = .ok q)
      (name_eq : name = "init.groovy.d" ∨ name = "plugins") :
      Adds s layout settings w (q ++ name :: rest) n
  /-- A directory along the workspace of a run. The run has been reached, its job name is allowed,
  its definition can be read, and the definition of its source repository is there. -/
  | workspace {realms : BootRealms} {home : RunHome} {extensions : Realm} {mid : World}
      {workspace : Path} {p : Place} (mode : settings.mode = .run)
      (reaches : Reaches s ⟨layout, realms, settings⟩ w home extensions mid)
      (makes : Payload.MakesWorkspace settings.options mid.files workspace)
      (along : (outcome (createDirs workspace) mid.files).2.Along workspace p) :
      Adds s layout settings w p .directory

/-- What a launch leaves of the world `w` in the world `w'`. -/
structure Footprint (s : Surroundings) (layout : BootLayout) (settings : LaunchSettings)
    (w w' : World) : Prop where
  /-- Relative paths start where they did. -/
  workDir : w'.files.workDir? = w.files.workDir?
  /-- Nothing is changed or removed. -/
  stays : ∀ p n, w.files.node? p = some n → w'.files.node? p = some n
  /-- What is there now was there before, or may be added. -/
  adds : ∀ p n, w'.files.node? p = some n →
    w.files.node? p = some n ∨ Adds s layout settings w p n
  /-- A directory that was requested as home is one still. -/
  home : ∀ dir, settings.runHome? = some dir → w.files.isDirectory dir = true →
    w'.files.isDirectory dir = true

namespace Footprint

/-- A launch that ends before it has a home leaves everything as it is. -/
theorem refl (s : Surroundings) (layout : BootLayout) (settings : LaunchSettings) (w : World) :
    Footprint s layout settings w w := ⟨rfl, fun _ _ => id, fun _ _ => .inl, fun _ _ => id⟩

/-- What grows only where a launch may add something is within its footprint. -/
theorem of_grows (hgrows : Grows (fun _ => False) w.files w'.files)
    (hadds : ∀ p n, w'.files.node? p = some n →
      w.files.node? p = some n ∨ Adds s layout settings w p n) :
    Footprint s layout settings w w' where
  workDir := hgrows.workDir
  stays _ _ hn := (hgrows.keeps hn).resolve_right fun hw => hw.1
  adds := hadds
  home _ _ hdir := hgrows.isDirectory hdir

end Footprint

/-- What furnishes the home requested may be added. -/
theorem adds_of_furniture {dir : Path} {rel : Place} (hrequested : settings.runHome? = some dir)
    (hplace : w.files.place dir = .ok q) (hrel : PluginList.Furniture rel n) :
    Adds s layout settings w (q ++ rel) n := by
  obtain ⟨name, more, rfl, hname⟩ := hrel.below
  exact .furniture hrequested hplace hname

/-- A directory along the workspace may be added by a launch that has come to its home. -/
theorem MakesAlong.adds {realms : BootRealms} {w₁ : World}
    (hrealms : BootRealms.build layout w.files = .ok realms)
    (hentry : ∃ d, realms.setupResolver.resolve setupContract.typeName = .ok d)
    (hprepare : outcome (RunHome.prepare s settings.runHome?) w = (.ok home, w₁))
    (h : MakesAlong ⟨layout, realms, settings⟩ home w₁ p) :
    Adds s layout settings w p .directory := by
  obtain ⟨hmode, dir, mid, extensions, workspace, hfurnish, hboot, hmakes, halong⟩ := h
  exact .workspace hmode ⟨hrealms, hentry, w₁, dir, hprepare, hfurnish, hboot⟩ hmakes halong

variable (hnamed : w.files.Named)
  (hwork : w.files.WorkDirStands)
include hnamed hwork

/-- **The footprint of a launch in the home requested.** -/
theorem footprint_existing {realms : BootRealms} {dir : Path}
    (hrealms : BootRealms.build layout w.files = .ok realms)
    (hentry : ∃ d, realms.setupResolver.resolve setupContract.typeName = .ok d)
    (hrequested : settings.runHome? = some dir) (hhome : w.files.CanHouse dir)
    (hprepare : outcome (RunHome.prepare s settings.runHome?) w = (.ok ⟨dir, false⟩, w)) :
    Footprint s layout settings w
      (outcome (runIn s ⟨layout, realms, settings⟩ ⟨dir, false⟩) w).2 := by
  obtain ⟨hgrows, hadded⟩ :=
    runIn_adds s ⟨layout, realms, settings⟩ ⟨dir, false⟩ w hnamed hwork hhome
  refine .of_grows hgrows fun p n hn => ?_
  rcases hadded hn with hold | ⟨hplace, hrel⟩ | hmakes
  · exact .inl hold
  · exact .inr (adds_of_furniture hrequested hplace hrel)
  · exact .inr (hmakes.adds hrealms hentry hprepare)

/-- **The footprint of a launch in a temporary home**, once that is given up. It is made where
nothing stood, so all that was there before stands elsewhere. -/
theorem footprint_temporary {realms : BootRealms} {name : String} {fs : FileSystem}
    (hrealms : BootRealms.build layout w.files = .ok realms)
    (hentry : ∃ d, realms.setupResolver.resolve setupContract.typeName = .ok d)
    (hname : Location.IsName name)
    (hcreate : w.files.createDir (s.tempDir.child name) = .ok fs)
    (hprepare : outcome (RunHome.prepare s settings.runHome?) w =
      (.ok ⟨s.tempDir.child name, true⟩, { w with files := fs })) :
    Footprint s layout settings w (RunHome.dispose ⟨s.tempDir.child name, true⟩
      (outcome (runIn s ⟨layout, realms, settings⟩ ⟨s.tempDir.child name, true⟩)
        { w with files := fs }).2) := by
  obtain ⟨q, hq, hfree, houtside, hempty, hkept, hnamed₁⟩ :=
    emptyAt_of_createDir hnamed hname hcreate
  have hgrows₁ : Grows (fun _ => False) w.files fs := grows_createDir hcreate
  have hwork₁ : fs.WorkDirStands := hwork.grows hgrows₁
  have hspared : ∀ {r : Place} {m : Node}, w.files.node? r = some m → ¬ q <+: r := by
    intro r m hm hbelow
    rw [node?_of_free hfree hbelow] at hm
    cases hm
  obtain ⟨hgrows, hadded⟩ := runIn_adds s ⟨layout, realms, settings⟩
    ⟨s.tempDir.child name, true⟩ { w with files := fs } hnamed₁ hwork₁ (.inr ⟨q, hempty⟩)
  obtain ⟨hworkDir, hleft⟩ := RunHome.dispose_temporary hname hempty hq hkept
    (fun d hd => hspared (hwork d (hgrows₁.workDir.symm.trans hd))) hgrows
  have hgrown := hgrows₁.trans hgrows
  refine .of_grows ⟨hworkDir.trans hgrown.workDir, fun {r m} hm => .inl ?_⟩ fun p n hn => ?_
  · rw [hleft, if_neg (hspared hm)]
    exact (hgrown.keeps hm).resolve_right fun hw => hw.1
  · rw [hleft] at hn
    split_ifs at hn with hbelow
    rcases hadded hn with hold | ⟨hplace, -⟩ | hmakes
    · rw [houtside p hbelow] at hold
      exact .inl hold
    · cases hempty.place.symm.trans hplace
      exact absurd (List.prefix_append _ _) hbelow
    · exact .inr (hmakes.adds hrealms hentry hprepare)

/-- **The footprint of a launch**, whether it gives a status or fails: whatever was there before is
there, unchanged; and what is there besides lies in the directories of the hooks and the modules of
the home that was requested, or is a directory along the workspace of a run whose job name,
definition and source repository nothing is wrong with. -/
theorem run_footprint (s : Surroundings) (layout : BootLayout) (settings : LaunchSettings) :
    Footprint s layout settings w (outcome (run s layout settings) w).2 := by
  rw [run]
  rw [outcome_bind_of_ok (outcome_files w)]
  cases hrealms : BootRealms.build layout w.files with
  | error e => exact .refl s layout settings w
  | ok realms =>
      dsimp only
      rw [enter]
      cases hresolve : realms.setupResolver.resolve setupContract.typeName with
      | error e =>
          have hfails : ∃ e, (setupLinker s).answer realms.setupResolver setupContract
              (· ⟨layout, realms, settings⟩) = .error e := by
            rw [Linker.answer_eq, Linker.locate, hresolve]
            exact ⟨_, rfl⟩
          obtain ⟨e, hfails⟩ := hfails
          rw [hfails]
          exact .refl s layout settings w
      | ok d =>
          rw [answer_setupLinker s _ hresolve]
          dsimp only
          rw [setup]
          dsimp only
          rcases RunHome.prepare_spec s settings.runHome? w with
            ⟨e, hprepare⟩ | ⟨dir, hrequested, hhome, hprepare⟩ |
              ⟨name, fs, -, hname, hcreate, hprepare⟩
          · rw [outcome_bind_of_error hprepare]
            exact .refl s layout settings w
          · rw [outcome_bind_of_ok hprepare, outcome_ending]
            exact footprint_existing hnamed hwork hrealms ⟨d, hresolve⟩ hrequested hhome hprepare
          · rw [outcome_bind_of_ok hprepare, outcome_ending]
            exact footprint_temporary hnamed hwork hrealms ⟨d, hresolve⟩ hname hcreate hprepare

omit hnamed hwork

/-! ### A workspace in the home -/

/-- An installation with a directory of init hooks, without extension modules. -/
def hookedFiles : FileSystem :=
  { workDir? := some ["w"]
    root := [("w", .directory [
      ("home", .directory []),
      ("host", .directory []),
      ("repo", .directory []),
      ("lib", .directory [("setup", .directory [("setup.jar", .file
        "Export-Types: pipeline.runner.setup.App, pipeline.runner.payload.Runner\n".toUTF8
        (.at 0))])]),
      ("hooks", .directory [("start.groovy", .file "println 1\n".toUTF8 (.at 0))]),
      ("plugins", .directory []),
      ("job", .directory [("Jenkinsfile", .file "pipeline \x7b\x7d\n".toUTF8 (.at 0))])])] }

/-- The settings of a launch with these hooks whose workspace lies in the home. -/
def hookedSettings : LaunchSettings :=
  { plugins := ⟨"plugins"⟩, runHome? := some ⟨"home"⟩, initHooks? := some ⟨"hooks"⟩
    options := { definition := ⟨"job"⟩, runWorkspace? := some ⟨"home/ws"⟩ } }

/-- The names in these files are allowed. -/
theorem hookedFiles_named : hookedFiles.Named := named_of_namesAllowed (by decide)

/-- The working directory is the root. -/
theorem hookedFiles_workDir : hookedFiles.WorkDirStands := by
  intro d hd
  cases hd
  decide

/-- That launch copies the hook and makes the workspace, within its footprint. -/
theorem run_footprint_hooked :
    Footprint conflictSurroundings conflictLaunch.layout hookedSettings { files := hookedFiles }
      (outcome (run conflictSurroundings conflictLaunch.layout hookedSettings)
        { files := hookedFiles }).2 ∧
    (outcome (run conflictSurroundings conflictLaunch.layout hookedSettings)
      { files := hookedFiles }).2.files.children ["w", "home"] =
        [("init.groovy.d", .directory), ("ws", .directory)] :=
  ⟨run_footprint hookedFiles_named hookedFiles_workDir conflictSurroundings conflictLaunch.layout
    hookedSettings, by decide +kernel⟩

/-- **Not all that a launch adds to its home lies in the directories of the hooks and the modules**:
the workspace may have been asked for in the home. -/
theorem not_added_in_two_directories :
    ¬ ∀ (s : Surroundings) (layout : BootLayout) (settings : LaunchSettings) (w : World)
        (dir : Path)
      (q p : Place) (n : Node), w.files.Named →
      w.files.WorkDirStands →
      settings.runHome? = some dir → w.files.place dir = .ok q →
      (outcome (run s layout settings) w).2.files.node? p = some n → w.files.node? p = none →
      q <+: p →
        ∃ name rest, p = q ++ name :: rest ∧ (name = "init.groovy.d" ∨ name = "plugins") := by
  intro h
  obtain ⟨name, rest, hp, hname⟩ := h conflictSurroundings conflictLaunch.layout hookedSettings
    { files := hookedFiles } ⟨"home"⟩ ["w", "home"] ["w", "home", "ws"] .directory hookedFiles_named
    hookedFiles_workDir rfl (by decide) (by decide +kernel) (by decide)
    (List.prefix_append ["w", "home"] ["ws"])
  obtain ⟨rfl, rfl⟩ : "ws" = name ∧ [] = rest := by simpa using hp
  revert hname
  decide

end Launch

end RealmBoot
