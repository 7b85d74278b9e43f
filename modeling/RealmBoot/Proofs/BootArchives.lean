import RealmBoot.Launch.Run
import RealmBoot.Proofs.Building

/-!
# The Archives of an Installation

Booting an installation scans seven places: three for the host realm, two for the setup realm, and
two that hold the payload. The archives of the payload are scanned once to keep them out of the
setup realm, and again when a realm of their own is built. This module says which archives each of
the three realms ends up with. As every scan of a place in one file system gives the same locations,
however its path is written, the setup realm and the payload realm never share one.

## Main results

* `BootRealms.buildHost_archives`, `BootRealms.buildSetup_archives`, `Launch.buildPayload_archives`:
  the archives of each realm, as unions and differences of scans.
* `BootRealms.build_archives`: the three together, and that the payload stays apart.
-/

namespace RealmBoot

namespace RealmBuilder

variable {fs : FileSystem} {label : String} {scanner : Scanner} {b : RealmBuilder}

/-- What scans of given places find together. -/
theorem collectAll_archives {dirs : List Path} {S : OrderedSet Location}
    (h : ({ label, scanner } : RealmBuilder).collectAll fs dirs = .ok b)
    (hS : ∀ a, a ∈ S ↔ ∃ dir ∈ dirs, scanner.Finds fs dir a) : b.archives = S := by
  obtain ⟨-, -, -, hmem⟩ := collectAll_spec h
  refine OrderedSet.ext fun a => ?_
  rw [hmem a, hS a]
  simp [OrderedSet.mem_def, EmptyCollection.emptyCollection]

end RealmBuilder

namespace BootRealms

variable {l : BootLayout} {fs : FileSystem}

/-- The host realm holds what its library directory, its launcher and the compatibility directory
of the repository hold. -/
theorem buildHost_archives {host : Realm} (h : buildHost l fs = .ok host) :
    ∃ lib launcher compat,
      l.moduleScanner.scanAll fs l.hostLibDir = .ok lib ∧
      l.moduleScanner.scanAll fs l.hostLauncherArchive = .ok launcher ∧
      l.moduleScanner.scanAll fs l.compatDir = .ok compat ∧
      host.archives = (lib.union launcher).union compat := by
  rw [buildHost] at h
  obtain ⟨b, hcollect, hmake⟩ := except_bind_eq_ok_iff.mp h
  obtain ⟨-, -, hscans, -⟩ := RealmBuilder.collectAll_spec hcollect
  simp only [List.forall_mem_cons] at hscans
  obtain ⟨⟨lib, hlib⟩, ⟨launcher, hlauncher⟩, ⟨compat, hcompat⟩, -⟩ := hscans
  obtain ⟨-, -, harchives, -⟩ := RealmBuilder.make_spec hmake
  refine ⟨lib, launcher, compat, hlib, hlauncher, hcompat, ?_⟩
  rw [harchives]
  refine RealmBuilder.collectAll_archives hcollect fun a => ?_
  simp [Scanner.Finds, hlib, hlauncher, hcompat, or_assoc]

/-- The setup realm holds what the repository and the setup directory hold, without what the two
places of the payload hold. -/
theorem buildSetup_archives {setup : Realm} (h : buildSetup l fs = .ok setup) :
    ∃ repo own bundled packaged,
      l.moduleScanner.scanAll fs l.appRepo = .ok repo ∧
      l.moduleScanner.scanAll fs l.setupDir = .ok own ∧
      l.moduleScanner.scanAll fs (l.appRepo.join ⟨l.payloadPath⟩) = .ok bundled ∧
      l.moduleScanner.scanAll fs (l.libPath.child "payload") = .ok packaged ∧
      setup.archives = (repo.union own).without (bundled.union packaged) := by
  rw [buildSetup] at h
  split at h
  · cases h
  · obtain ⟨b, hcollect, h⟩ := except_bind_eq_ok_iff.mp h
    obtain ⟨b', hexclude, hmake⟩ := except_bind_eq_ok_iff.mp h
    obtain ⟨-, hscanner, hscans, -⟩ := RealmBuilder.collectAll_spec hcollect
    simp only [List.forall_mem_cons] at hscans
    obtain ⟨⟨repo, hrepo⟩, ⟨own, hown⟩, -⟩ := hscans
    obtain ⟨-, -, hscans', hmem⟩ := RealmBuilder.excludeAll_spec hexclude
    rw [hscanner] at hscans' hmem
    simp only [BootLayout.payloadDirs, List.forall_mem_cons] at hscans'
    obtain ⟨⟨bundled, hbundled⟩, ⟨packaged, hpackaged⟩, -⟩ := hscans'
    obtain ⟨-, -, harchives, -⟩ := RealmBuilder.make_spec hmake
    have hcollected : b.archives = repo.union own :=
      RealmBuilder.collectAll_archives hcollect fun a => by
        simp [Scanner.Finds, hrepo, hown]
    refine ⟨repo, own, bundled, packaged, hrepo, hown, hbundled, hpackaged, ?_⟩
    refine OrderedSet.ext fun a => ?_
    rw [harchives, hmem a, hcollected, OrderedSet.mem_without]
    simp [BootLayout.payloadDirs, Scanner.Finds, hbundled, hpackaged]

end BootRealms

/-- The payload realm holds what the two places of the payload hold. -/
theorem Launch.buildPayload_archives {launch : Launch} {fs : FileSystem} {payload : Realm}
    (h : launch.buildPayload fs = .ok payload) :
    ∃ bundled packaged,
      launch.layout.moduleScanner.scanAll fs
        (launch.layout.appRepo.join ⟨launch.layout.payloadPath⟩) = .ok bundled ∧
      launch.layout.moduleScanner.scanAll fs (launch.layout.libPath.child "payload") =
        .ok packaged ∧
      payload.archives = bundled.union packaged := by
  rw [buildPayload] at h
  obtain ⟨b, hcollect, hmake⟩ := except_bind_eq_ok_iff.mp h
  obtain ⟨-, -, hscans, -⟩ := RealmBuilder.collectAll_spec hcollect
  simp only [BootLayout.payloadDirs, List.forall_mem_cons] at hscans
  obtain ⟨⟨bundled, hbundled⟩, ⟨packaged, hpackaged⟩, -⟩ := hscans
  obtain ⟨-, -, harchives, -⟩ := RealmBuilder.make_spec hmake
  refine ⟨bundled, packaged, hbundled, hpackaged, ?_⟩
  rw [harchives]
  refine RealmBuilder.collectAll_archives hcollect fun a => ?_
  simp [BootLayout.payloadDirs, Scanner.Finds, hbundled, hpackaged]

/-- **The payload stays apart.** Of a booted installation the host realm holds exactly what its
three places hold, and the setup realm what the repository and the setup directory hold without
what the two places of the payload hold. A payload realm built over the same files holds just what
was left out, and so shares no location with the setup realm. -/
theorem BootRealms.build_archives {l : BootLayout} {fs : FileSystem} {r : BootRealms}
    (h : build l fs = .ok r) :
    (∃ lib launcher compat,
      l.moduleScanner.scanAll fs (l.hostDir.join ⟨l.hostLibSubdir⟩) = .ok lib ∧
      l.moduleScanner.scanAll fs (l.hostDir.join ⟨l.hostLauncher⟩) = .ok launcher ∧
      l.moduleScanner.scanAll fs (l.appRepo.join ⟨l.compatPath⟩) = .ok compat ∧
      r.host.archives = (lib.union launcher).union compat) ∧
    ∃ repo own bundled packaged,
      l.moduleScanner.scanAll fs l.appRepo = .ok repo ∧
      l.moduleScanner.scanAll fs (l.libPath.child "setup") = .ok own ∧
      l.moduleScanner.scanAll fs (l.appRepo.join ⟨l.payloadPath⟩) = .ok bundled ∧
      l.moduleScanner.scanAll fs (l.libPath.child "payload") = .ok packaged ∧
      r.setup.archives = (repo.union own).without (bundled.union packaged) ∧
      ∀ launch payload, launch.layout = l → Launch.buildPayload launch fs = .ok payload →
        payload.archives = bundled.union packaged ∧
          ∀ a ∈ payload.archives, a ∉ r.setup.archives := by
  rw [build] at h
  obtain ⟨host, hhost, h⟩ := except_bind_eq_ok_iff.mp h
  obtain ⟨setup, hsetup, h⟩ := except_bind_eq_ok_iff.mp h
  cases h
  refine ⟨buildHost_archives hhost, ?_⟩
  obtain ⟨repo, own, bundled, packaged, hrepo, hown, hbundled, hpackaged, harchives⟩ :=
    buildSetup_archives hsetup
  refine ⟨repo, own, bundled, packaged, hrepo, hown, hbundled, hpackaged, harchives, ?_⟩
  rintro launch payload rfl hpayload
  obtain ⟨bundled', packaged', hbundled', hpackaged', hunion⟩ :=
    Launch.buildPayload_archives hpayload
  obtain rfl : bundled = bundled' := Except.ok.inj (hbundled.symm.trans hbundled')
  obtain rfl : packaged = packaged' := Except.ok.inj (hpackaged.symm.trans hpackaged')
  refine ⟨hunion, fun a ha hin => ?_⟩
  rw [harchives, OrderedSet.mem_without] at hin
  exact hin.2 (hunion ▸ ha)

/-- An installation whose payload lies inside the repository and beside the setup archives. -/
def nestedFiles : FileSystem :=
  { workDir? := some ["w"]
    root := [("w", .directory [
      ("host", .directory [("core.jar", .file "".toUTF8 (.at 0))]),
      ("repo", .directory [
        ("shared.jar", .file "".toUTF8 (.at 0)),
        ("payload", .directory [("bundled.jar", .file "".toUTF8 (.at 0))]),
        ("lib", .directory [
          ("setup", .directory [("setup.jar", .file "".toUTF8 (.at 0))]),
          ("payload", .directory [("packaged.jar", .file "".toUTF8 (.at 0))])])])])] }

/-- A layout of that installation with its paths written in different ways. -/
def nestedLayout : BootLayout :=
  { hostDir := ⟨"/w/./host"⟩, appRepo := ⟨"repo"⟩, libPath := ⟨"repo/../repo/lib"⟩
    hostLibSubdir := ".", hostLauncher := "core.jar", compatPath := "javax"
    payloadPath := "./lib/../payload", moduleExtensions := ["jar"]
    extensionModuleExtensions := ["jpi"], fallbackPolicy := .firstDefined }

/-- The setup realm of that installation does not hold the archive packaged for the payload, which
the scan of the repository meets under another path. -/
theorem build_archives_nested :
    ∃ r, BootRealms.build nestedLayout nestedFiles = .ok r ∧
      (⟨["w", "repo", "lib", "payload", "packaged.jar"]⟩ : Location) ∉ r.setup.archives := by
  let launch : Launch := { (default : Launch) with layout := nestedLayout }
  have hbuilt : (BootRealms.build nestedLayout nestedFiles).toOption.isSome = true := by
    decide +kernel
  have hpayload : (launch.buildPayload nestedFiles).toOption.any (fun payload => payload.contains
      ⟨["w", "repo", "lib", "payload", "packaged.jar"]⟩) = true := by decide +kernel
  cases hr : BootRealms.build nestedLayout nestedFiles with
  | error e => simp [hr, Except.toOption] at hbuilt
  | ok r =>
      cases hp : launch.buildPayload nestedFiles with
      | error e => simp [hp, Except.toOption] at hpayload
      | ok payload =>
          obtain ⟨-, _, _, _, _, -, -, -, -, -, hapart⟩ := BootRealms.build_archives hr
          refine ⟨r, rfl, (hapart launch payload rfl hp).2 _ ?_⟩
          simpa [hp, Except.toOption, Realm.contains, OrderedSet.contains] using hpayload

end RealmBoot
