import RealmBoot.Launch.Run
import RealmBoot.Proofs.Building
import RealmBoot.Proofs.Outcome

/-!
# The Course of a Launch

A launch boots the realms, calls the setup layer through them, prepares and furnishes a home, boots
the host with the extension modules found there, and calls the payload. This module says when a
launch gets as far as that last call (`Launch.Reaches`), that the whole launch then comes down to
it, and what the call comes down to in turn.

## Main results

* `Launch.outcome_run`: a launch that reaches the call of the payload ends as that call does.
* `Launch.outcome_callPayload`: the call runs the payload if a resolver for it is found and knows
  its type, and fails in one of two ways otherwise.
-/

namespace RealmBoot

namespace Launch

/-- A launch in the world `w` gets as far as calling the payload in the world `w'`: its realms are
built, the setup layer is defined in them, the home is prepared and furnished, and the realm of the
extension modules is sealed. -/
structure Reaches (s : Surroundings) (l : Launch) (w : World) (home : RunHome)
    (extensions : Realm) (w' : World) : Prop where
  /-- The realms are those of the layout. -/
  realms : BootRealms.build l.layout w.files = .ok l.realms
  /-- The setup layer is found through them. -/
  entry : ∃ d, l.realms.setupResolver.resolve setupContract.typeName = .ok d
  /-- The home is prepared, furnished, and the host boots with the modules in it. -/
  boot : ∃ w₁ dir, outcome (RunHome.prepare s l.settings.runHome?) w = (.ok home, w₁) ∧
    outcome (furnish l home) w₁ = (.ok dir, w') ∧
    bootHost l.layout.extensionScanner dir w'.files = .ok extensions

/-- The platform does not expose the payload. -/
theorem platform_not_payload (mode : LaunchMode) :
    BootRealms.platformRealm.define? (payloadContract mode).typeName = none := by
  cases mode <;> decide

/-- The implementation that the payload wanted runs. -/
def payload (s : Surroundings) : LaunchMode → RunOptions → Effect RunError Int
  | .run => Payload.run s
  | .lint => Payload.lint

/-- A resolver that knows the type of the payload is called through with success, since the payload
is linked in with the signature its callers expect. -/
theorem answer_payloadLinker (s : Surroundings) (mode : LaunchMode) (r : Resolver)
    (options : RunOptions) :
    (payloadLinker s mode).answer r (payloadContract mode) (· options) =
      match r.resolve (payloadContract mode).typeName with
      | .ok _ => .ok (payload s mode options)
      | .error e => .error (.ofResolver r (payloadContract mode) .unresolved (some e)) := by
  rw [Linker.answer_eq, Linker.locate]
  cases mode with
  | run =>
      cases r.resolve (payloadContract .run).typeName with
      | error e => rfl
      | ok d =>
          simp [payloadLinker, Payload.runnerLinker, payloadContract, Linker.find?_link, payload,
            Except.map]
  | lint =>
      cases r.resolve (payloadContract .lint).typeName with
      | error e => rfl
      | ok d =>
          simp [payloadLinker, Payload.linterLinker, payloadContract, Linker.find?_link, payload,
            Except.map]

/-- The setup layer is called with success through a resolver that knows its type. -/
theorem answer_setupLinker (s : Surroundings) {r : Resolver} {d : Definition} (l : Launch)
    (h : r.resolve setupContract.typeName = .ok d) :
    (setupLinker s).answer r setupContract (· l) = .ok (setup s l) := by
  rw [Linker.answer_eq, Linker.locate]
  simp [h, setupLinker, Linker.find?_link, Except.map]

/-- **What the call of the payload comes down to.** -/
theorem outcome_callPayload (s : Surroundings) (l : Launch) (extensions : Realm) (w : World) :
    outcome (callPayload s l extensions) w =
      match l.payloadResolver extensions (payloadContract l.settings.mode).typeName w.files with
      | .error e => (.error (.discovery e), w)
      | .ok r =>
        match r.resolve (payloadContract l.settings.mode).typeName with
        | .ok _ =>
          ((outcome (payload s l.settings.mode l.settings.options) w).1.mapError .run,
            (outcome (payload s l.settings.mode l.settings.options) w).2)
        | .error e =>
          (.error (.targetNotFound ((TargetNotFound.ofResolver r
            (payloadContract l.settings.mode) .unresolved (some e)).withContext
              l.layout.payloadDirs)), w) := by
  rw [callPayload]
  rw [outcome_bind_of_ok (outcome_files w)]
  cases l.payloadResolver extensions (payloadContract l.settings.mode).typeName w.files with
  | error e => rfl
  | ok r =>
      simp only [answer_payloadLinker]
      cases r.resolve (payloadContract l.settings.mode).typeName with
      | error e => rfl
      | ok d => exact outcome_effect_mapFailure _ _ w

/-- **A launch ends as its call of the payload does,** once it gets that far; the home is given up
afterwards. -/
theorem outcome_run {s : Surroundings} {l : Launch} {w w' : World} {home : RunHome}
    {extensions : Realm} (h : Reaches s l w home extensions w') :
    outcome (run s l.layout l.settings) w =
      ((outcome (callPayload s l extensions) w').1,
        home.dispose (outcome (callPayload s l extensions) w').2) := by
  obtain ⟨hrealms, ⟨d, hentry⟩, w₁, dir, hprepare, hfurnish, hboot⟩ := h
  have hrunIn : outcome (runIn s l home) w₁ = outcome (callPayload s l extensions) w' := by
    rw [runIn]
    rw [outcome_bind_of_ok hfurnish, outcome_bind_of_ok (outcome_files w')]
    simp only [hboot]
  have hsetup : outcome (setup s l) w =
      outcome (Effect.ending (runIn s l home) home.dispose) w₁ := by
    rw [setup]
    rw [outcome_bind_of_ok hprepare]
  have henter : outcome (enter s l) w = outcome (setup s l) w := by
    rw [enter]
    rw [answer_setupLinker s l hentry]
  calc outcome (run s l.layout l.settings) w
      = outcome (enter s l) w := by
        rw [run]
        rw [outcome_bind_of_ok (outcome_files w)]
        simp only [hrealms]
    _ = outcome (Effect.ending (runIn s l home) home.dispose) w₁ := by rw [henter, hsetup]
    _ = _ := by rw [outcome_ending, hrunIn]

end Launch

/-- An installation is booted once its two realms are built. -/
theorem BootRealms.build_eq_ok {l : BootLayout} {fs : FileSystem} {host setup : Realm}
    (hhost : buildHost l fs = .ok host) (hsetup : buildSetup l fs = .ok setup) :
    build l fs = .ok { platform := platformRealm, host, setup } := by
  rw [build]
  rw [hhost]
  simp only [bind, Except.bind, hsetup]
  rfl

/-! ### Launches into a given home -/

/-- An empty directory is taken as home as it is. -/
theorem RunHome.outcome_prepare_existing {s : Surroundings} {w : World} {dir : Path}
    (hdir : w.files.isDirectory dir = true) (hempty : w.files.list dir = .ok []) :
    outcome (RunHome.prepare s (some dir)) w = (.ok ⟨dir, false⟩, w) := by
  simp only [RunHome.prepare, RunHome.existing]
  rw [outcome_bind_of_ok (outcome_files w)]
  simp only [hdir, hempty, Bool.not_true, Bool.false_eq_true, if_false]
  rfl

/-- A directory of extension modules is used as it is. -/
theorem PluginList.outcome_prepare_directory {w : World} {plugins : Path} {home : RunHome}
    {cacheDir? : Option Path} (h : w.files.isDirectory plugins = true) :
    outcome (PluginList.prepare plugins home cacheDir?) w = (.ok plugins, w) := by
  rw [PluginList.prepare]
  rw [outcome_bind_of_ok (outcome_files w)]
  simp only [h, if_true]
  rfl

/-- A launch that is given an empty home and a directory of extension modules, and no init hooks,
reaches the call of the payload with the world unchanged. -/
theorem Launch.Reaches.of_directories {s : Surroundings} {l : Launch} {w : World} {dir : Path}
    {extensions : Realm} (hrealms : BootRealms.build l.layout w.files = .ok l.realms)
    (hentry : ∃ d, l.realms.setupResolver.resolve setupContract.typeName = .ok d)
    (hhome : l.settings.runHome? = some dir) (hdir : w.files.isDirectory dir = true)
    (hempty : w.files.list dir = .ok []) (hhooks : l.settings.initHooks? = none)
    (hplugins : w.files.isDirectory l.settings.plugins = true)
    (hboot : bootHost l.layout.extensionScanner l.settings.plugins w.files = .ok extensions) :
    Reaches s l w ⟨dir, false⟩ extensions w := by
  refine ⟨hrealms, hentry, w, l.settings.plugins, ?_, ?_, hboot⟩
  · rw [hhome]
    exact RunHome.outcome_prepare_existing hdir hempty
  · rw [furnish]
    rw [hhooks]
    exact PluginList.outcome_prepare_directory hplugins

end RealmBoot
