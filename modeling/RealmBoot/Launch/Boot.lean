import RealmBoot.Config.Layout
import RealmBoot.Pipeline.Options
import RealmBoot.Realm.Builder
import RealmBoot.Realm.Resolver

/-!
# Boot Realms

An installation is booted as three realms on top of each other: the platform, the host application
above it, and the setup layer above that. The archives of the payload are kept out of the setup
realm, so that the payload is only ever loaded by a realm of its own.

* `BootLayout.ofConfig`: the directories of an installation.
* `BootRealms.build`: the realms of an installation.
-/

namespace RealmBoot

/-- The directories of one installation. -/
structure BootLayout where
  /-- The unpacked host application. -/
  hostDir : Path
  /-- The program's own archives. -/
  appRepo : Path
  /-- The directory that holds the setup and payload archives. -/
  libPath : Path
  /-- Where the host keeps its archives, below its directory. -/
  hostLibSubdir : String
  /-- The archive that launches the host, below its directory. -/
  hostLauncher : String
  /-- The archives of the repository that belong to the host realm. -/
  compatPath : String
  /-- The archives of the repository that belong to the payload. -/
  payloadPath : String
  /-- The extensions of module archives. -/
  moduleExtensions : List String
  /-- The extensions of extension modules. -/
  extensionModuleExtensions : List String
  /-- How the setup realm and the extension modules are combined. -/
  fallbackPolicy : FallbackPolicy
deriving DecidableEq, Repr, Inhabited

namespace BootLayout

/-- The layout of an installation from its settings. -/
def ofConfig (s : Surroundings) (l : LayoutConfig) : Except ConfigError BootLayout := do
  let fallbackPolicy ← match FallbackPolicy.ofText? l.fallbackPolicy with
    | some policy => pure policy
    | none => throw (.invalidValue "layout.fallback_policy" l.fallbackPolicy)
  let hostDir ← l.hostDir
  let appRepo ← l.appRepo s
  let libPath ← l.libPath s
  pure {
    hostDir, appRepo, libPath, fallbackPolicy
    hostLibSubdir := l.hostLibSubdir
    hostLauncher := l.hostLauncher
    compatPath := l.compatPath
    payloadPath := l.payloadPath
    moduleExtensions := l.moduleExtensions
    extensionModuleExtensions := l.extensionModuleExtensions }

/-- Where the host keeps its archives. -/
def hostLibDir (l : BootLayout) : Path := l.hostDir.join ⟨l.hostLibSubdir⟩

/-- The archive that launches the host. -/
def hostLauncherArchive (l : BootLayout) : Path := l.hostDir.join ⟨l.hostLauncher⟩

/-- The archives of the repository that belong to the host realm. -/
def compatDir (l : BootLayout) : Path := l.appRepo.join ⟨l.compatPath⟩

/-- The setup archives. -/
def setupDir (l : BootLayout) : Path := l.libPath.child "setup"

/-- The payload archives: those bundled in the repository, then those packaged apart. -/
def payloadDirs (l : BootLayout) : List Path :=
  [l.appRepo.join ⟨l.payloadPath⟩, l.libPath.child "payload"]

/-- What knows module archives. -/
def moduleScanner (l : BootLayout) : Scanner := .ofExtensions l.moduleExtensions

/-- What knows extension modules. -/
def extensionScanner (l : BootLayout) : Scanner := .ofExtensions l.extensionModuleExtensions

end BootLayout

/-- The realms of a booted installation. -/
structure BootRealms where
  /-- The platform. -/
  platform : PlatformRealm
  /-- The host application. -/
  host : Realm
  /-- The setup layer. -/
  setup : Realm
deriving Inhabited

namespace BootRealms

/-- The platform realm at the bottom. -/
def platformRealm : PlatformRealm := PlatformRealm.bootstrap.expose RunOptions.typeName

/-- Builds the host realm. -/
def buildHost (l : BootLayout) (fs : FileSystem) : Except DiscoveryError Realm := do
  let b : RealmBuilder := { label := "host", scanner := l.moduleScanner }
  let b ← b.collectAll fs [l.hostLibDir, l.hostLauncherArchive, l.compatDir]
  b.make fs

/-- Builds the setup realm, without the archives of the payload. -/
def buildSetup (l : BootLayout) (fs : FileSystem) : Except DiscoveryError Realm := do
  if !fs.pathExists l.setupDir then
    throw (.missingDirectory l.setupDir "setup archive directory")
  let b : RealmBuilder := { label := "setup", scanner := l.moduleScanner }
  let b ← b.collectAll fs [l.appRepo, l.setupDir]
  let b ← b.excludeAll fs l.payloadDirs
  b.make fs

/-- Builds the realms of an installation. -/
def build (l : BootLayout) (fs : FileSystem) : Except DiscoveryError BootRealms := do
  let host ← buildHost l fs
  let setup ← buildSetup l fs
  pure { platform := platformRealm, host, setup }

/-- The platform as a resolver. -/
def platformResolver (r : BootRealms) : Resolver := .platform r.platform

/-- The host realm as a resolver. -/
def hostResolver (r : BootRealms) : Resolver := .child r.platformResolver r.host

/-- The setup realm as a resolver. -/
def setupResolver (r : BootRealms) : Resolver := .child r.hostResolver r.setup

/-- The snapshots of the host and the setup realm. -/
def snapshots (r : BootRealms) : List Resolver.Snapshot :=
  [Resolver.snapshot r.platformResolver r.host, Resolver.snapshot r.hostResolver r.setup]

end BootRealms

end RealmBoot
