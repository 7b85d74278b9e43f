import RealmBoot.Launch.Boot
import RealmBoot.Launch.Payload
import RealmBoot.Launch.PluginList

/-!
# Launching

A launch boots the realms of an installation and calls the setup layer through the setup realm. The
setup layer prepares the run home and the extension modules, boots the host, and calls the payload:
through the setup realm and the extension modules if those know it, otherwise through a payload
realm above the extension modules. The home is given up in the end, whatever happened.

* `Launch.run`: the status of a launch, or the failure that ended it.
-/

namespace RealmBoot

/-- What the payload does with a definition. -/
inductive LaunchMode where
  /-- Run it. -/
  | run
  /-- Check it. -/
  | lint
deriving DecidableEq, Repr, Inhabited

/-- The settings of one launch. -/
structure LaunchSettings where
  /-- A directory of extension modules, or a plugin list. -/
  plugins : Path
  /-- The cache of extension archives. -/
  cacheDir? : Option Path := none
  /-- The run home requested. -/
  runHome? : Option Path := none
  /-- The init hooks for the home. -/
  initHooks? : Option Path := none
  /-- What to do. -/
  mode : LaunchMode := .run
  /-- What the payload is told. -/
  options : RunOptions := {}
deriving Inhabited

/-- All that the setup layer is given. -/
structure Launch where
  /-- The installation. -/
  layout : BootLayout
  /-- Its realms. -/
  realms : BootRealms
  /-- The settings. -/
  settings : LaunchSettings
deriving Inhabited

namespace Launch

/-- What the launcher and the setup layer agree on. -/
def setupContract : Contract :=
  ⟨"pipeline.runner.setup.App", ⟨"run", ["pipeline.runner.bootstrap.Launch"]⟩⟩

/-- Boots the host: builds the realm of the extension modules in a directory. -/
def bootHost (scanner : Scanner) (pluginsDir : Path) (fs : FileSystem) :
    Except DiscoveryError Realm := do
  let b : RealmBuilder := { label := "extensions", scanner }
  let b ← b.collect fs pluginsDir
  b.make fs

/-- The realm of the extension modules as a resolver. -/
def registry (l : Launch) (extensions : Realm) : Resolver := .child l.realms.hostResolver extensions

/-- The setup realm with the extension modules to fall back on. -/
def combined (l : Launch) (extensions : Realm) : Resolver :=
  .bound "setup+extensions" l.layout.fallbackPolicy l.realms.setupResolver (l.registry extensions)

/-- Builds the payload realm. -/
def buildPayload (l : Launch) (fs : FileSystem) : Except DiscoveryError Realm := do
  let b : RealmBuilder := { label := "payload", scanner := l.layout.moduleScanner }
  let b ← b.collectAll fs l.layout.payloadDirs
  b.make fs

/-- What the payload is called through: the setup realm and the extension modules if those know its
type, otherwise a payload realm, which is not built before that. -/
def payloadResolver (l : Launch) (extensions : Realm) (typeName : String) (fs : FileSystem) :
    Except DiscoveryError Resolver :=
  match (l.combined extensions).resolve typeName with
  | .ok _ => .ok (l.combined extensions)
  | .error _ => (l.buildPayload fs).map (.child (l.registry extensions))

/-- The contract of the payload wanted. -/
def payloadContract : LaunchMode → Contract
  | .run => Payload.runnerContract
  | .lint => Payload.linterContract

/-- The payloads linked in. -/
def payloadLinker (s : Surroundings) : LaunchMode → Linker (RunOptions → Effect RunError Int)
  | .run => Payload.runnerLinker s
  | .lint => Payload.linterLinker

/-- Calls the payload. -/
def callPayload (s : Surroundings) (l : Launch) (extensions : Realm) : Effect Failure Int := do
  let mode := l.settings.mode
  let contract := payloadContract mode
  match l.payloadResolver extensions contract.typeName (← Effect.files) with
  | .error e => throw (.discovery e)
  | .ok r =>
    match (payloadLinker s mode).answer r contract (· l.settings.options) with
    | .error e => throw (.targetNotFound (e.withContext l.layout.payloadDirs))
    | .ok call => Effect.mapFailure .run call

/-- Puts the init hooks asked for and the extension modules into a home, and gives the directory of
the modules. -/
def furnish (l : Launch) (home : RunHome) : Effect Failure Path := do
  match l.settings.initHooks? with
  | none => pure ()
  | some hooks =>
    let _ ← home.installHooks hooks
  PluginList.prepare l.settings.plugins home l.settings.cacheDir?

/-- What happens in a home: it is furnished, the host is booted, and the payload is called. -/
def runIn (s : Surroundings) (l : Launch) (home : RunHome) : Effect Failure Int := do
  let pluginsDir ← furnish l home
  match bootHost l.layout.extensionScanner pluginsDir (← Effect.files) with
  | .error e => throw (.discovery e)
  | .ok extensions => callPayload s l extensions

/-- The setup layer. -/
def setup (s : Surroundings) (l : Launch) : Effect Failure Int := do
  let home ← RunHome.prepare s l.settings.runHome?
  Effect.ending (runIn s l home) home.dispose

/-- The setup layers linked in. -/
def setupLinker (s : Surroundings) : Linker (Launch → Effect Failure Int) :=
  ({} : Linker (Launch → Effect Failure Int)).link setupContract.typeName setupContract.method
    (setup s)

/-- Calls the setup layer through the setup realm. -/
def enter (s : Surroundings) (l : Launch) : Effect Failure Int := do
  match (setupLinker s).answer l.realms.setupResolver setupContract (· l) with
  | .ok call => call
  | .error e =>
    let fs ← Effect.files
    let repo := (fs.absolute l.layout.appRepo).toOption.getD l.layout.appRepo
    throw (.targetNotFound (e.withContext [repo, l.layout.hostLibDir]))

/-- Boots an installation and calls its setup layer. -/
def run (s : Surroundings) (layout : BootLayout) (settings : LaunchSettings) :
    Effect Failure Int := do
  match BootRealms.build layout (← Effect.files) with
  | .error e => throw (.discovery e)
  | .ok realms => enter s { layout, realms, settings }

end Launch

end RealmBoot
