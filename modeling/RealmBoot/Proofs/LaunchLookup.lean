import Mathlib.Control.Monad.Basic
import RealmBoot.Proofs.GraphCourse
import RealmBoot.Proofs.LaunchCourse
import RealmBoot.Proofs.LookupOrder
import RealmBoot.Proofs.SearchedDirectories

/-!
# A Launch Is an Ordered Lookup

A launch finds its payload through nested realms: the setup realm and the extension modules stand
side by side above the host, and where neither knows the payload a realm of its own is built above
the extension modules. As long as the first definition counts, all this comes down to one list. The
host, the setup realm, the extension modules and the payload archives are asked in this order, the
last of them only if it has to be, and the first that exports the type of the payload defines it.

## Main results

* `Launch.resolver?_assembly`: the two stand side by side through a fallback realm that is bound
  late.
* `Launch.resolve_combined_iff`, `Launch.resolve_payload_iff`: what the resolvers of a launch find
  is what the first realm of the list defines.
* `Launch.outcome_run_of_firstDefined`: how a launch ends, for every way in which the type of the
  payload may be exported.
-/

namespace RealmBoot

/-! ### The first realm of a list -/

/-- The first of some realms that exports a name gives it its definition. -/
def Realm.FirstDefines (realms : List Realm) (name : String) (d : Definition) : Prop :=
  ∃ before r after, realms = before ++ r :: after ∧ (∀ q ∈ before, name ∉ q.exports) ∧
    name ∈ r.exports ∧ (Resolver.Lookup.sealed r).Describes name d

namespace Realm

variable {realms : List Realm} {name : String} {d : Definition}

/-- A sealed realm does not define what it does not export. -/
theorem define?_eq_none_iff {r : Realm} : r.define? name = none ↔ name ∉ r.exports := by
  rw [mem_exports_iff]
  exact Resolver.Lookup.define?_eq_none_iff (l := .sealed r)

/-- It defines what it exports, as the definition of that name describes. -/
theorem define?_eq_some_iff {r : Realm} :
    r.define? name = some d ↔
      name ∈ r.exports ∧ (Resolver.Lookup.sealed r).Describes name d := by
  rw [mem_exports_iff]
  exact Resolver.Lookup.define?_eq_some_iff (l := .sealed r)

/-- Asking realms one after another gives the definition by the first that exports the name. -/
theorem findSome?_define?_eq_some_iff :
    realms.findSome? (·.define? name) = some d ↔ FirstDefines realms name d := by
  simp only [List.findSome?_eq_some_iff, define?_eq_some_iff, define?_eq_none_iff, FirstDefines]
  constructor
  · rintro ⟨before, r, after, hsplit, ⟨hexports, hdescribes⟩, hbefore⟩
    exact ⟨before, r, after, hsplit, hbefore, hexports, hdescribes⟩
  · rintro ⟨before, r, after, hsplit, hbefore, hexports, hdescribes⟩
    exact ⟨before, r, after, hsplit, ⟨hexports, hdescribes⟩, hbefore⟩

/-- A name has a definition exactly if some realm exports it. -/
theorem exists_firstDefines_iff :
    (∃ d, FirstDefines realms name d) ↔ ∃ r ∈ realms, name ∈ r.exports := by
  simp only [← findSome?_define?_eq_some_iff, ← Option.isSome_iff_exists, List.isSome_findSome?,
    List.any_eq_true]
  refine exists_congr fun r => and_congr_right fun _ => ?_
  rw [Option.isSome_iff_ne_none, ne_eq, define?_eq_none_iff, not_not]

end Realm

/-- Directories put in front of those searched stay in front. -/
theorem TargetNotFound.prefix_searched_withContext (e : TargetNotFound) (dirs : List Path) :
    dirs <+: (e.withContext dirs).searched :=
  ⟨_, (foldl_addDirectory dirs e.searched).symm⟩

namespace Launch

variable {s : Surroundings} {l : Launch} {w w' : World} {home : RunHome}
  {extensions payloadRealm : Realm} {d : Definition}

/-! ### The realms of a launch -/

/-- The type a launch looks for. -/
def entry (l : Launch) : String := (payloadContract l.settings.mode).typeName

/-- The realms a launch asks before it builds one for the payload. -/
def known (l : Launch) (extensions : Realm) : List Realm :=
  [l.realms.host, l.realms.setup, extensions]

/-- Each of these realms was sealed by a builder, on the files as they were at the time. -/
theorem Reaches.sealed (h : Reaches s l w home extensions w') :
    l.realms.platform = BootRealms.platformRealm ∧
      (∃ b : RealmBuilder, b.make w.files = .ok l.realms.host) ∧
      (∃ b : RealmBuilder, b.make w.files = .ok l.realms.setup) ∧
      ∃ b : RealmBuilder, b.make w'.files = .ok extensions := by
  obtain ⟨-, dir, -, -, hboot⟩ := h.boot
  obtain ⟨host, hhost, hrealms⟩ := except_bind_eq_ok_iff.mp h.realms
  obtain ⟨setup, hsetup, hrealms⟩ := except_bind_eq_ok_iff.mp hrealms
  rw [← Except.ok.inj hrealms]
  refine ⟨rfl, ?_, ?_, ?_⟩
  · obtain ⟨b, -, hmake⟩ := except_bind_eq_ok_iff.mp hhost
    exact ⟨b, hmake⟩
  · rw [BootRealms.buildSetup] at hsetup
    split at hsetup
    · cases hsetup
    · obtain ⟨b, -, hsetup⟩ := except_bind_eq_ok_iff.mp hsetup
      obtain ⟨b', -, hmake⟩ := except_bind_eq_ok_iff.mp hsetup
      exact ⟨b', hmake⟩
  · obtain ⟨b, -, hmake⟩ := except_bind_eq_ok_iff.mp hboot
    exact ⟨b, hmake⟩

/-- So was the payload realm. -/
theorem buildPayload_sealed {fs : FileSystem} (h : l.buildPayload fs = .ok payloadRealm) :
    ∃ b : RealmBuilder, b.make fs = .ok payloadRealm := by
  obtain ⟨b, -, hmake⟩ := except_bind_eq_ok_iff.mp h
  exact ⟨b, hmake⟩

/-- The steps by which a launch puts its realms together. The fallback realm is made before the host
boots, and is bound to the extension modules once their realm is sealed. -/
def assembly (l : Launch) (extensions : Realm) : List GraphStep :=
  [.make (.platform l.realms.platform), .make (.sealed l.realms.host (some 0)),
    .make (.sealed l.realms.setup (some 1)),
    .make (.fallback "setup+extensions" l.layout.fallbackPolicy 2),
    .make (.sealed extensions (some 1)), .bind 3 4]

/-- After these steps the fallback realm stands for the setup realm with the extension modules. -/
theorem resolver?_assembly (l : Launch) (extensions : Realm) :
    (RealmGraph.run {} (l.assembly extensions)).resolver? 3 = some (l.combined extensions) := rfl

/-! ### What its resolvers find -/

/-- The platform does not define the entry of a launch. -/
theorem Reaches.platform_define? (h : Reaches s l w home extensions w') :
    l.realms.platform.define? l.entry = none := by
  rw [h.sealed.1, Launch.entry, platform_not_payload]

/-- The realm of the extension modules is assembled. -/
theorem Reaches.registry_assembled (h : Reaches s l w home extensions w') :
    (l.registry extensions).Assembled := by
  obtain ⟨-, ⟨_, hhost⟩, -, ⟨_, hextensions⟩⟩ := h.sealed
  exact .child (.child (.platform _) hhost) hextensions

/-- So is the combined one if the first definition counts. -/
theorem Reaches.combined_assembled (h : Reaches s l w home extensions w')
    (hpolicy : l.layout.fallbackPolicy = .firstDefined) : (l.combined extensions).Assembled := by
  obtain ⟨-, ⟨_, hhost⟩, ⟨_, hsetup⟩, -⟩ := h.sealed
  rw [combined, hpolicy]
  exact .bound (.child (.child (.platform _) hhost) hsetup) h.registry_assembled

/-- The setup realm and the extension modules come down to one list: that the host is asked twice,
and the platform in between, makes no difference. -/
theorem resolve_combined_iff (h : Reaches s l w home extensions w')
    (hpolicy : l.layout.fallbackPolicy = .firstDefined) :
    (l.combined extensions).resolve l.entry = .ok d ↔
      Realm.FirstDefines (l.known extensions) l.entry d := by
  have hlookups : (l.combined extensions).lookups =
      [.platform l.realms.platform, .sealed l.realms.host, .sealed l.realms.setup,
        .platform l.realms.platform, .sealed l.realms.host, .sealed extensions] := rfl
  rw [Resolver.resolve_eq_ok_iff_findSome? (h.combined_assembled hpolicy), hlookups,
    ← Realm.findSome?_define?_eq_some_iff]
  simp only [List.findSome?_cons, Resolver.Lookup.define?, h.platform_define?, known]
  cases l.realms.host.define? l.entry <;> cases l.realms.setup.define? l.entry <;> rfl

/-- A payload realm above the extension modules is the end of the list, once the realms known before
it are known not to export the type. -/
theorem resolve_payload_iff (h : Reaches s l w home extensions w')
    (hunknown : ∀ r ∈ l.known extensions, l.entry ∉ r.exports)
    (hpayload : l.buildPayload w'.files = .ok payloadRealm) :
    (Resolver.child (l.registry extensions) payloadRealm).resolve l.entry = .ok d ↔
      Realm.FirstDefines (l.known extensions ++ [payloadRealm]) l.entry d := by
  obtain ⟨b, hmake⟩ := buildPayload_sealed hpayload
  have hlookups : (Resolver.child (l.registry extensions) payloadRealm).lookups =
      [.platform l.realms.platform, .sealed l.realms.host, .sealed extensions,
        .sealed payloadRealm] := rfl
  rw [Resolver.resolve_eq_ok_iff_findSome? (.child h.registry_assembled hmake), hlookups,
    ← Realm.findSome?_define?_eq_some_iff]
  simp only [← Realm.define?_eq_none_iff, known, List.forall_mem_cons] at hunknown
  obtain ⟨hhost, hsetup, hextensions, -⟩ := hunknown
  simp only [List.findSome?_cons, List.findSome?_append, Resolver.Lookup.define?,
    h.platform_define?, known, hhost, hsetup, hextensions, List.findSome?_nil, Option.none_or]

/-! ### How it ends -/

/-- The end of a launch that calls its payload: the status or the error of the payload, and what is
left once the home is given up. -/
def called (s : Surroundings) (l : Launch) (home : RunHome) (w' : World) :
    Except Failure Int × World :=
  ((outcome (payload s l.settings.mode l.settings.options) w').1.mapError .run,
    home.dispose (outcome (payload s l.settings.mode l.settings.options) w').2)

/-- A launch calls its payload through a resolver that finds its type. -/
theorem outcome_run_of_ok (h : Reaches s l w home extensions w') {r : Resolver}
    (hr : l.payloadResolver extensions l.entry w'.files = .ok r) (hd : r.resolve l.entry = .ok d) :
    outcome (run s l.layout l.settings) w = called s l home w' := by
  rw [entry] at hr hd
  rw [outcome_run h, outcome_callPayload]
  simp only [hr, hd, called]

/-- A launch ends without a call if its resolver does not find the type, and says where it was to be
expected. -/
theorem outcome_run_of_error (h : Reaches s l w home extensions w') {r : Resolver}
    {e : ResolveError} (hr : l.payloadResolver extensions l.entry w'.files = .ok r)
    (he : r.resolve l.entry = .error e) :
    ∃ missing, outcome (run s l.layout l.settings) w =
        (.error (.targetNotFound missing), home.dispose w') ∧
      missing.contract = payloadContract l.settings.mode ∧ missing.failure = .unresolved ∧
        l.layout.payloadDirs <+: missing.searched := by
  rw [entry] at hr he
  rw [outcome_run h, outcome_callPayload]
  simp only [hr, he]
  exact ⟨_, rfl, rfl, rfl, TargetNotFound.prefix_searched_withContext _ _⟩

/-- Where the realms known before do not export the type, a payload realm is built. -/
theorem payloadResolver_of_unknown (h : Reaches s l w home extensions w')
    (hpolicy : l.layout.fallbackPolicy = .firstDefined)
    (hunknown : ∀ r ∈ l.known extensions, l.entry ∉ r.exports) (fs : FileSystem) :
    l.payloadResolver extensions l.entry fs =
      (l.buildPayload fs).map (.child (l.registry extensions)) := by
  cases hcombined : (l.combined extensions).resolve l.entry with
  | error e => simp only [payloadResolver, hcombined]
  | ok d =>
      obtain ⟨r, hr, hexports⟩ :=
        Realm.exists_firstDefines_iff.mp ⟨d, (resolve_combined_iff h hpolicy).mp hcombined⟩
      exact absurd hexports (hunknown r hr)

/-- If a realm known before exports the type, the first such realm defines it and the launch ends as
the payload does. No payload realm is built, whatever the files are. -/
theorem outcome_run_of_known (h : Reaches s l w home extensions w')
    (hpolicy : l.layout.fallbackPolicy = .firstDefined)
    (hknown : ∃ r ∈ l.known extensions, l.entry ∈ r.exports) :
    (∀ fs, l.payloadResolver extensions l.entry fs = .ok (l.combined extensions)) ∧
      (∃ d, (l.combined extensions).resolve l.entry = .ok d ∧
        Realm.FirstDefines (l.known extensions) l.entry d) ∧
      outcome (run s l.layout l.settings) w = called s l home w' := by
  obtain ⟨d, hfirst⟩ := Realm.exists_firstDefines_iff.mpr hknown
  have hd := (resolve_combined_iff h hpolicy).mpr hfirst
  have hresolver : ∀ fs, l.payloadResolver extensions l.entry fs = .ok (l.combined extensions) :=
    fun fs => by simp only [payloadResolver, hd]
  exact ⟨hresolver, ⟨d, hd, hfirst⟩, outcome_run_of_ok h (hresolver _) hd⟩

/-- If no realm known before exports the type, and the payload realm cannot be built, the launch
fails. -/
theorem outcome_run_of_broken (h : Reaches s l w home extensions w')
    (hpolicy : l.layout.fallbackPolicy = .firstDefined)
    (hunknown : ∀ r ∈ l.known extensions, l.entry ∉ r.exports) {e : DiscoveryError}
    (he : l.buildPayload w'.files = .error e) :
    outcome (run s l.layout l.settings) w = (.error (.discovery e), home.dispose w') := by
  have hresolver := payloadResolver_of_unknown h hpolicy hunknown w'.files
  rw [he, entry] at hresolver
  rw [outcome_run h, outcome_callPayload, hresolver]
  rfl

/-- If no realm known before exports the type, the payload realm decides. -/
theorem outcome_run_of_unknown (h : Reaches s l w home extensions w')
    (hpolicy : l.layout.fallbackPolicy = .firstDefined)
    (hunknown : ∀ r ∈ l.known extensions, l.entry ∉ r.exports)
    (hpayload : l.buildPayload w'.files = .ok payloadRealm) :
    l.payloadResolver extensions l.entry w'.files =
        .ok (.child (l.registry extensions) payloadRealm) ∧
      (l.entry ∈ payloadRealm.exports →
        (∃ d, (Resolver.child (l.registry extensions) payloadRealm).resolve l.entry = .ok d ∧
          Realm.FirstDefines (l.known extensions ++ [payloadRealm]) l.entry d) ∧
        outcome (run s l.layout l.settings) w = called s l home w') ∧
      (l.entry ∉ payloadRealm.exports →
        ∃ missing, outcome (run s l.layout l.settings) w =
            (.error (.targetNotFound missing), home.dispose w') ∧
          missing.contract = payloadContract l.settings.mode ∧ missing.failure = .unresolved ∧
            l.layout.payloadDirs <+: missing.searched) := by
  have hresolver := payloadResolver_of_unknown h hpolicy hunknown w'.files
  rw [hpayload] at hresolver
  refine ⟨hresolver, fun hexports => ?_, fun hmissing => ?_⟩
  · obtain ⟨d, hfirst⟩ := Realm.exists_firstDefines_iff.mpr
      ⟨payloadRealm, List.mem_append_right _ (List.mem_singleton.mpr rfl), hexports⟩
    have hd := (resolve_payload_iff h hunknown hpayload).mpr hfirst
    exact ⟨⟨d, hd, hfirst⟩, outcome_run_of_ok h hresolver hd⟩
  · cases hd : (Resolver.child (l.registry extensions) payloadRealm).resolve l.entry with
    | error e => exact outcome_run_of_error h hresolver hd
    | ok d =>
        obtain ⟨r, hr, hexports⟩ := Realm.exists_firstDefines_iff.mp
          ⟨d, (resolve_payload_iff h hunknown hpayload).mp hd⟩
        rcases List.mem_append.mp hr with hr | hr
        · exact absurd hexports (hunknown r hr)
        · obtain rfl := List.mem_singleton.mp hr
          exact absurd hexports hmissing

/-- **A launch is an ordered lookup.** Let a launch reach the call of its payload, with the first
definition counting. If the host, the setup realm or the extension modules export the type of the
payload, the first of them defines it, and the launch ends as the payload does; no payload realm is
built, whatever the files are. Otherwise one is built, and if that fails, so does the launch. If the
payload realm exports the type, it defines it, and the launch ends as the payload does; if not, the
type is reported as missing, with the two places of the payload first among those searched. Realms
export what the manifests of their archives export. -/
theorem outcome_run_of_firstDefined (h : Reaches s l w home extensions w')
    (hpolicy : l.layout.fallbackPolicy = .firstDefined) :
    ((∃ r ∈ l.known extensions, l.entry ∈ r.exports) →
      (∀ fs, l.payloadResolver extensions l.entry fs = .ok (l.combined extensions)) ∧
      (∃ d, (l.combined extensions).resolve l.entry = .ok d ∧
        Realm.FirstDefines (l.known extensions) l.entry d) ∧
      outcome (run s l.layout l.settings) w = called s l home w') ∧
    ((∀ r ∈ l.known extensions, l.entry ∉ r.exports) →
      (∀ e, l.buildPayload w'.files = .error e →
        outcome (run s l.layout l.settings) w = (.error (.discovery e), home.dispose w')) ∧
      ∀ payloadRealm, l.buildPayload w'.files = .ok payloadRealm →
        l.payloadResolver extensions l.entry w'.files =
          .ok (.child (l.registry extensions) payloadRealm) ∧
        (l.entry ∈ payloadRealm.exports →
          (∃ d, (Resolver.child (l.registry extensions) payloadRealm).resolve l.entry = .ok d ∧
            Realm.FirstDefines (l.known extensions ++ [payloadRealm]) l.entry d) ∧
          outcome (run s l.layout l.settings) w = called s l home w') ∧
        (l.entry ∉ payloadRealm.exports →
          ∃ missing, outcome (run s l.layout l.settings) w =
              (.error (.targetNotFound missing), home.dispose w') ∧
            missing.contract = payloadContract l.settings.mode ∧ missing.failure = .unresolved ∧
              l.layout.payloadDirs <+: missing.searched)) ∧
    (∀ r ∈ [l.realms.host, l.realms.setup],
      l.entry ∈ r.exports ↔ ∃ a ∈ r.archives, a.ExportsIn w.files l.entry) ∧
    ∀ r, r = extensions ∨ l.buildPayload w'.files = .ok r →
      (l.entry ∈ r.exports ↔ ∃ a ∈ r.archives, a.ExportsIn w'.files l.entry) := by
  refine ⟨outcome_run_of_known h hpolicy, fun hunknown => ⟨fun e he => ?_, fun _ hpayload => ?_⟩,
    ?_, ?_⟩
  · exact outcome_run_of_broken h hpolicy hunknown he
  · exact outcome_run_of_unknown h hpolicy hunknown hpayload
  · obtain ⟨-, ⟨_, hhost⟩, ⟨_, hsetup⟩, -⟩ := h.sealed
    simp only [List.forall_mem_cons, List.not_mem_nil, false_imp_iff, implies_true, and_true]
    exact ⟨RealmBuilder.mem_exports_of_make hhost _, RealmBuilder.mem_exports_of_make hsetup _⟩
  · rintro r (rfl | hpayload)
    · obtain ⟨-, -, -, ⟨_, hextensions⟩⟩ := h.sealed
      exact RealmBuilder.mem_exports_of_make hextensions _
    · obtain ⟨b, hmake⟩ := buildPayload_sealed hpayload
      exact RealmBuilder.mem_exports_of_make hmake _

/-! ### A broken payload that does not matter -/

/-- What surrounds the launch below. -/
def brokenPayloadSurroundings : Surroundings :=
  { executable := ⟨"/bin/program"⟩, homeDir? := none, tempDir := ⟨"/tmp"⟩, time := "noon"
    date := "today", logFilter? := none }

/-- An installation whose extension module exports the linter, and whose only payload archive has a
manifest that cannot be read. -/
def brokenPayloadFiles : FileSystem :=
  { workDir? := some ["w"]
    root := [("w", .directory [
      ("home", .directory []),
      ("lib", .directory [
        ("setup", .directory [("setup.jar", .file
          "Export-Types: pipeline.runner.setup.App
".toUTF8 (.at 0))]),
        ("payload", .directory [("broken.jar", .file "no separator
".toUTF8 (.at 0))])]),
      ("plugins", .directory [("linter.jpi", .file
        "Short-Name: linter
Export-Types: pipeline.runner.payload.Linter
".toUTF8 (.at 0))]),
      ("Jenkinsfile", .file "pipeline \x7b\x7d\n".toUTF8 (.at 0))])] }

/-- The launch that checks a definition with that installation. -/
def brokenPayloadLaunch : Launch :=
  { layout := {
      hostDir := ⟨"host"⟩, appRepo := ⟨"repo"⟩, libPath := ⟨"lib"⟩
      hostLibSubdir := "WEB-INF/lib", hostLauncher := "winstone.jar", compatPath := "javax/servlet"
      payloadPath := "payload", moduleExtensions := ["jar"], extensionModuleExtensions := ["jpi"]
      fallbackPolicy := .firstDefined }
    realms := {
      platform := BootRealms.platformRealm
      host := { (default : Realm) with
        label := "host"
        sources := [⟨"host/WEB-INF/lib"⟩, ⟨"host/winstone.jar"⟩, ⟨"repo/javax/servlet"⟩] }
      setup := {
        label := "setup"
        sources := [⟨"repo"⟩, ⟨"lib/setup"⟩]
        contents := [(⟨["w", "lib", "setup", "setup.jar"]⟩, ["pipeline.runner.setup.App"])] } }
    settings := { plugins := ⟨"plugins"⟩, runHome? := some ⟨"home"⟩, mode := .lint } }

/-- The realm of its extension module. -/
def brokenPayloadExtensions : Realm :=
  { label := "extensions"
    sources := [⟨"plugins"⟩]
    contents := [(⟨["w", "plugins", "linter.jpi"]⟩, ["pipeline.runner.payload.Linter"])] }

/-- This launch comes as far as asking for its entry. -/
theorem brokenPayloadLaunch_reaches :
    Reaches brokenPayloadSurroundings brokenPayloadLaunch { files := brokenPayloadFiles }
      ⟨⟨"home"⟩, false⟩ brokenPayloadExtensions { files := brokenPayloadFiles } := by
  have hhost : BootRealms.buildHost brokenPayloadLaunch.layout brokenPayloadFiles =
      .ok brokenPayloadLaunch.realms.host := by decide
  have hsetup : BootRealms.buildSetup brokenPayloadLaunch.layout brokenPayloadFiles =
      .ok brokenPayloadLaunch.realms.setup := by decide +kernel
  exact .of_directories (BootRealms.build_eq_ok hhost hsetup) ⟨⟨setupContract.typeName, "setup",
    .archive ⟨["w", "lib", "setup", "setup.jar"]⟩⟩, rfl⟩ rfl (by decide)
    (by decide) rfl (by decide) (by decide)

/-- That launch ends with the status of the linter, although its payload realm cannot be built. -/
theorem outcome_run_of_firstDefined_brokenPayload :
    (∃ e, brokenPayloadLaunch.buildPayload brokenPayloadFiles = .error e) ∧
      outcome (run brokenPayloadSurroundings brokenPayloadLaunch.layout
        brokenPayloadLaunch.settings) { files := brokenPayloadFiles } =
        (.ok 0, { files := brokenPayloadFiles, output := "Linting...\nDone\n" }) := by
  have hbroken : (brokenPayloadLaunch.buildPayload brokenPayloadFiles).toOption = none := by
    decide
  have hknown : ∃ r ∈ brokenPayloadLaunch.known brokenPayloadExtensions,
      brokenPayloadLaunch.entry ∈ r.exports := by decide
  have h := (outcome_run_of_firstDefined brokenPayloadLaunch_reaches rfl).1 hknown
  refine ⟨?_, ?_⟩
  · cases he : brokenPayloadLaunch.buildPayload brokenPayloadFiles with
    | error e => exact ⟨e, rfl⟩
    | ok payloadRealm => simp [he, Except.toOption] at hbroken
  · rw [h.2.2, called]
    have houtcome : (outcome (payload brokenPayloadSurroundings .lint
        brokenPayloadLaunch.settings.options) { files := brokenPayloadFiles }) =
        (.ok 0, { files := brokenPayloadFiles, output := "Linting...\nDone\n" }) := by
      rfl
    rw [show brokenPayloadLaunch.settings.mode = .lint from rfl, houtcome]
    rfl

end Launch

end RealmBoot
