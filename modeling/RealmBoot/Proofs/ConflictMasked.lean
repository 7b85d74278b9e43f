import Mathlib.Control.Monad.Basic
import RealmBoot.Proofs.LaunchCourse
import RealmBoot.Proofs.LookupOrder

/-!
# A Conflict about the Payload Is Masked

Under the unanimous policy the setup realm and the extension modules have to agree on the payload
if both define it. They never do: their definitions carry the labels of different realms. The
resolver for the call takes the conflict between them for the absence of the payload, and builds a
payload realm above the extension modules, through which the module's definition is found after
all.

## Main results

* `Launch.combined_conflict`: the two definitions conflict.
* `Launch.outcome_run_of_conflict`: a launch with this conflict runs the payload, unless the payload
  realm cannot be built.
* `Launch.not_conflict_ends_in_error`: so such a launch need not end in an error.
-/

namespace RealmBoot

/-! ### What single realms define -/

namespace Realm

variable {r : Realm} {name : String}

/-- What no archive exports is not defined. -/
theorem define?_eq_none_of_not_exports (h : ∀ a, ¬ r.Exports a name) : r.define? name = none := by
  rw [define?, exporter?_eq_none_iff.mpr h, Option.map_none]

/-- A name that is exported is defined under the label of the realm. -/
theorem exists_define?_of_exports {a : Location} (h : r.Exports a name) :
    ∃ a, r.define? name = some ⟨name, r.label, .archive a⟩ := by
  cases hfound : r.exporter? name with
  | none => exact absurd h (exporter?_eq_none_iff.mp hfound a)
  | some b => exact ⟨b, by rw [define?, hfound, Option.map_some]⟩

end Realm

namespace Resolver

variable {name : String} {parent primary secondary : Resolver} {realm : Realm}
  {d d' : Definition} {e : ResolveError}

/-- A realm never hides what its parent finds. -/
theorem resolve_child_of_ok (h : parent.resolve name = .ok d) :
    (child parent realm).resolve name = .ok d := by
  simp only [resolve, h]

/-- A realm whose parent fails answers from its own archives. -/
theorem resolve_child_of_define (h : parent.resolve name = .error e)
    (hd : realm.define? name = some d) : (child parent realm).resolve name = .ok d := by
  simp only [resolve, h, hd]

/-- A realm fails if its parent fails and its own archives do not export the name. -/
theorem resolve_child_of_none (h : parent.resolve name = .error e)
    (hd : realm.define? name = none) :
    (child parent realm).resolve name = .error (missing (child parent realm) name) := by
  simp only [resolve, h, hd]

/-- Two sources that have to agree and do not give a conflict. -/
theorem resolve_bound_of_ne {label : String} (h : primary.resolve name = .ok d)
    (h' : secondary.resolve name = .ok d') (hne : d' ≠ d) :
    ∃ e, (bound label .unanimous primary secondary).resolve name = .error e ∧
      e.isConflict = true := by
  refine ⟨disagreement label (bound label .unanimous primary secondary).chain d d', ?_, rfl⟩
  simp only [resolve, h, h', if_neg hne]

end Resolver

/-! ### The realms of a launch -/

/-- Booted realms have the labels they are built with. -/
theorem BootRealms.build_labels {l : BootLayout} {fs : FileSystem} {r : BootRealms}
    (h : build l fs = .ok r) :
    r.platform = platformRealm ∧ r.host.label = "host" ∧ r.setup.label = "setup" := by
  rw [build] at h
  obtain ⟨host, hhost, h⟩ := except_bind_eq_ok_iff.mp h
  obtain ⟨setup, hsetup, h⟩ := except_bind_eq_ok_iff.mp h
  cases h
  refine ⟨rfl, ?_, ?_⟩
  · rw [buildHost] at hhost
    obtain ⟨b, hcollect, hmake⟩ := except_bind_eq_ok_iff.mp hhost
    exact (RealmBuilder.make_spec hmake).1.trans (RealmBuilder.collectAll_spec hcollect).1
  · rw [buildSetup] at hsetup
    split at hsetup
    · cases hsetup
    · obtain ⟨b, hcollect, hsetup⟩ := except_bind_eq_ok_iff.mp hsetup
      obtain ⟨b', hexclude, hmake⟩ := except_bind_eq_ok_iff.mp hsetup
      rw [(RealmBuilder.make_spec hmake).1, (RealmBuilder.excludeAll_spec hexclude).1,
        (RealmBuilder.collectAll_spec hcollect).1]

namespace Launch

variable {s : Surroundings} {l : Launch} {w w' : World} {home : RunHome} {extensions : Realm}

/-- The realm of the extension modules has the label it is built with. -/
theorem bootHost_label {scanner : Scanner} {dir : Path} {fs : FileSystem}
    (h : bootHost scanner dir fs = .ok extensions) : extensions.label = "extensions" := by
  rw [bootHost] at h
  obtain ⟨b, hcollect, hmake⟩ := except_bind_eq_ok_iff.mp h
  obtain ⟨found, -, rfl⟩ := RealmBuilder.collect_eq_ok_iff.mp hcollect
  exact (RealmBuilder.make_spec hmake).1

/-- What no archive of the host exports is not found through the host. -/
theorem hostResolver_fails (hreach : Reaches s l w home extensions w')
    (hhost : ∀ a, ¬ l.realms.host.Exports a (payloadContract l.settings.mode).typeName) :
    ∃ e, l.realms.hostResolver.resolve (payloadContract l.settings.mode).typeName = .error e := by
  have hplatform : l.realms.platformResolver.resolve (payloadContract l.settings.mode).typeName =
      .error (l.realms.platformResolver.missing (payloadContract l.settings.mode).typeName) := by
    simp only [BootRealms.platformResolver, Resolver.resolve,
      (BootRealms.build_labels hreach.realms).1, platform_not_payload]
  exact ⟨_, Resolver.resolve_child_of_none hplatform
    (Realm.define?_eq_none_of_not_exports hhost)⟩

/-- **The definitions conflict.** A payload that no archive of the host exports, but one of the
setup realm and one of the extension modules, is defined in two ways. Their labels alone tell them
apart. -/
theorem combined_conflict (hreach : Reaches s l w home extensions w')
    (hpolicy : l.layout.fallbackPolicy = .unanimous)
    (hhost : ∀ a, ¬ l.realms.host.Exports a (payloadContract l.settings.mode).typeName)
    (hsetup : ∃ a, l.realms.setup.Exports a (payloadContract l.settings.mode).typeName)
    (hext : ∃ a, extensions.Exports a (payloadContract l.settings.mode).typeName) :
    (∃ e, (l.combined extensions).resolve (payloadContract l.settings.mode).typeName = .error e ∧
      e.isConflict = true) ∧
    ∃ d, (l.registry extensions).resolve (payloadContract l.settings.mode).typeName = .ok d := by
  obtain ⟨e, hfails⟩ := hostResolver_fails hreach hhost
  obtain ⟨a, hsetup⟩ := hsetup
  obtain ⟨a', hown⟩ := Realm.exists_define?_of_exports hsetup
  obtain ⟨b, hext⟩ := hext
  obtain ⟨b', hmodule⟩ := Realm.exists_define?_of_exports hext
  have hprimary : l.realms.setupResolver.resolve (payloadContract l.settings.mode).typeName =
      .ok _ :=
    Resolver.resolve_child_of_define hfails hown
  have hsecondary : (l.registry extensions).resolve (payloadContract l.settings.mode).typeName =
      .ok _ := Resolver.resolve_child_of_define hfails hmodule
  refine ⟨?_, _, hsecondary⟩
  rw [combined]
  rw [hpolicy]
  refine Resolver.resolve_bound_of_ne hprimary hsecondary fun heq => ?_
  obtain ⟨-, dir, -, -, hboot⟩ := hreach.boot
  have hlabels := congrArg Definition.realm heq
  rw [(BootRealms.build_labels hreach.realms).2.2, bootHost_label hboot] at hlabels
  exact absurd hlabels (by simp)

/-- **A conflict about the payload is masked.** A payload that no archive of the host exports, but
one of the setup realm and one of the extension modules, is defined in conflicting ways. The launch
fails without calling the payload only if the payload realm cannot be built; otherwise the payload
is called, and the launch ends as the payload does. The error counts as absence, whatever its
kind. -/
theorem outcome_run_of_conflict (hreach : Reaches s l w home extensions w')
    (hpolicy : l.layout.fallbackPolicy = .unanimous)
    (hhost : ∀ a, ¬ l.realms.host.Exports a (payloadContract l.settings.mode).typeName)
    (hsetup : ∃ a, l.realms.setup.Exports a (payloadContract l.settings.mode).typeName)
    (hext : ∃ a, extensions.Exports a (payloadContract l.settings.mode).typeName) :
    (∃ e, (l.combined extensions).resolve (payloadContract l.settings.mode).typeName = .error e ∧
      e.isConflict = true) ∧
    outcome (run s l.layout l.settings) w =
      match l.buildPayload w'.files with
      | .error e => (.error (.discovery e), home.dispose w')
      | .ok _ =>
        ((outcome (payload s l.settings.mode l.settings.options) w').1.mapError .run,
          home.dispose (outcome (payload s l.settings.mode l.settings.options) w').2) := by
  obtain ⟨⟨e, hconflict, hisConflict⟩, d, hregistry⟩ :=
    combined_conflict hreach hpolicy hhost hsetup hext
  refine ⟨⟨e, hconflict, hisConflict⟩, ?_⟩
  rw [outcome_run hreach, outcome_callPayload]
  have hresolver :
      l.payloadResolver extensions (payloadContract l.settings.mode).typeName w'.files =
      (l.buildPayload w'.files).map (.child (l.registry extensions)) := by
    rw [payloadResolver]
    rw [hconflict]
  rw [hresolver]
  cases l.buildPayload w'.files with
  | error e => rfl
  | ok payloadRealm =>
      simp only [Except.map, Resolver.resolve_child_of_ok hregistry]

/-! ### A conflict that goes unnoticed -/

/-- What surrounds the launch below. -/
def conflictSurroundings : Surroundings :=
  { executable := ⟨"/bin/program"⟩, homeDir? := none, tempDir := ⟨"/tmp"⟩, time := "noon"
    date := "today", logFilter? := none }

/-- An installation whose setup archive and whose extension module both export the runner. There
are no payload archives at all. -/
def conflictFiles : FileSystem :=
  { workDir? := some ["w"]
    root := [("w", .directory [
      ("home", .directory []),
      ("host", .directory []),
      ("repo", .directory []),
      ("lib", .directory [("setup", .directory [("setup.jar", .file
        "Export-Types: pipeline.runner.setup.App, pipeline.runner.payload.Runner\n".toUTF8
        (.at 0))])]),
      ("plugins", .directory [("runner.jpi", .file
        "Short-Name: runner\nExport-Types: pipeline.runner.payload.Runner\n".toUTF8 (.at 0))]),
      ("job", .directory [("Jenkinsfile", .file "pipeline \x7b\x7d\n".toUTF8 (.at 0))])])] }

/-- The launch of that installation under the unanimous policy. -/
def conflictLaunch : Launch :=
  { layout := {
      hostDir := ⟨"host"⟩, appRepo := ⟨"repo"⟩, libPath := ⟨"lib"⟩
      hostLibSubdir := "WEB-INF/lib", hostLauncher := "winstone.jar", compatPath := "javax/servlet"
      payloadPath := "io/jenkins/jenkinsfile-runner/payload", moduleExtensions := ["jar"]
      extensionModuleExtensions := ["jpi", "hpi"], fallbackPolicy := .unanimous }
    realms := {
      platform := BootRealms.platformRealm
      host := { (default : Realm) with
        label := "host"
        sources := [⟨"host/WEB-INF/lib"⟩, ⟨"host/winstone.jar"⟩, ⟨"repo/javax/servlet"⟩] }
      setup := {
        label := "setup"
        sources := [⟨"repo"⟩, ⟨"lib/setup"⟩]
        contents := [(⟨["w", "lib", "setup", "setup.jar"]⟩,
          ["pipeline.runner.setup.App", "pipeline.runner.payload.Runner"])]
        sorted := by decide } }
    settings := {
      plugins := ⟨"plugins"⟩, runHome? := some ⟨"home"⟩, options := { definition := ⟨"job"⟩ } } }

/-- The realm of its extension module. -/
def conflictExtensions : Realm :=
  { label := "extensions"
    sources := [⟨"plugins"⟩]
    contents := [(⟨["w", "plugins", "runner.jpi"]⟩, ["pipeline.runner.payload.Runner"])]
    sorted := by decide }

/-- The launch reaches the call of the payload, with the conflict between setup realm and extension
module. -/
theorem conflictLaunch_reaches :
    Reaches conflictSurroundings conflictLaunch { files := conflictFiles } ⟨⟨"home"⟩, false⟩
      conflictExtensions { files := conflictFiles } := by
  have hhost : BootRealms.buildHost conflictLaunch.layout conflictFiles =
      .ok conflictLaunch.realms.host := by decide
  have hsetup : BootRealms.buildSetup conflictLaunch.layout conflictFiles =
      .ok conflictLaunch.realms.setup := by decide +kernel
  exact .of_directories (BootRealms.build_eq_ok hhost hsetup) ⟨⟨setupContract.typeName, "setup",
    .archive ⟨["w", "lib", "setup", "setup.jar"]⟩⟩, rfl⟩ rfl (by decide)
    (by decide) rfl (by decide) (by decide +kernel)

/-- The host does not have the payload. -/
theorem conflictLaunch_host_exports (a : Location) :
    ¬ conflictLaunch.realms.host.Exports a
        (payloadContract conflictLaunch.settings.mode).typeName :=
  Realm.exporter?_eq_none_iff.mp rfl a

/-- The setup realm has it. -/
theorem conflictLaunch_setup_exports :
    ∃ a, conflictLaunch.realms.setup.Exports a
      (payloadContract conflictLaunch.settings.mode).typeName :=
  ⟨⟨["w", "lib", "setup", "setup.jar"]⟩, _, List.mem_singleton.mpr rfl, by decide⟩

/-- And so has the extension module. -/
theorem conflictExtensions_exports :
    ∃ a, conflictExtensions.Exports a (payloadContract conflictLaunch.settings.mode).typeName :=
  ⟨⟨["w", "plugins", "runner.jpi"]⟩, _, List.mem_singleton.mpr rfl, by decide⟩

/-- In that launch the conflict is found, and the runner runs all the same. -/
theorem outcome_run_of_conflict_conflictLaunch :
    (∃ e, (conflictLaunch.combined conflictExtensions).resolve "pipeline.runner.payload.Runner" =
      .error e ∧ e.isConflict = true) ∧
    (outcome (run conflictSurroundings conflictLaunch.layout conflictLaunch.settings)
      { files := conflictFiles }).1 =
      (outcome (Payload.run conflictSurroundings conflictLaunch.settings.options)
        { files := conflictFiles }).1.mapError .run := by
  have hpayload : conflictLaunch.buildPayload conflictFiles = .ok
      { label := "payload"
        sources := [⟨"repo/io/jenkins/jenkinsfile-runner/payload"⟩, ⟨"lib/payload"⟩]
        contents := [] } := by decide
  have h := outcome_run_of_conflict conflictLaunch_reaches rfl conflictLaunch_host_exports
    conflictLaunch_setup_exports conflictExtensions_exports
  refine ⟨h.1, ?_⟩
  rw [h.2, hpayload]
  rfl

/-- **A launch with conflicting definitions of its payload need not end in an error.** -/
theorem not_conflict_ends_in_error :
    ¬ ∀ (s : Surroundings) (l : Launch) (w w' : World) (home : RunHome) (extensions : Realm),
      Reaches s l w home extensions w' → l.layout.fallbackPolicy = .unanimous →
      (∀ a, ¬ l.realms.host.Exports a (payloadContract l.settings.mode).typeName) →
      (∃ a, l.realms.setup.Exports a (payloadContract l.settings.mode).typeName) →
      (∃ a, extensions.Exports a (payloadContract l.settings.mode).typeName) →
      ∃ e, (outcome (run s l.layout l.settings) w).1 = .error e := by
  intro h
  obtain ⟨e, he⟩ := h _ _ _ _ _ _ conflictLaunch_reaches rfl conflictLaunch_host_exports
    conflictLaunch_setup_exports conflictExtensions_exports
  have hstatus : (outcome (run conflictSurroundings conflictLaunch.layout conflictLaunch.settings)
      { files := conflictFiles }).1.toOption = some 0 := by decide +kernel
  rw [he] at hstatus
  cases hstatus

end Launch

end RealmBoot
