import RealmBoot.Extension.Installation
import RealmBoot.Json
import RealmBoot.Launch.Boot

/-!
# What Commands Show

Boot realms are shown with their entries in alphabetical order, an installation in the order of its
stages.
-/

namespace RealmBoot

namespace CommandLine

/-- A list of paths. -/
def shownPaths (ps : List Path) : Json := .texts (ps.map (·.text))

/-- A layout. -/
def shownLayout (l : BootLayout) : Json :=
  .object [
    ("app_repo", .text l.appRepo.text),
    ("compat_path", .text l.compatPath),
    ("extension_module_extensions", .texts l.extensionModuleExtensions),
    ("fallback_policy", .text l.fallbackPolicy.text),
    ("host_dir", .text l.hostDir.text),
    ("host_launcher", .text l.hostLauncher),
    ("host_lib_subdir", .text l.hostLibSubdir),
    ("lib_path", .text l.libPath.text),
    ("module_extensions", .texts l.moduleExtensions),
    ("payload_path", .text l.payloadPath)]

/-- A platform realm. -/
def shownPlatform (p : PlatformRealm) : Json :=
  .object [
    ("label", .text p.label),
    ("names", .texts p.names.toList),
    ("prefixes", .texts p.prefixes)]

/-- The snapshot of a sealed realm. -/
def shownSnapshot (s : Resolver.Snapshot) : Json :=
  .object [
    ("archives", .texts (s.archives.map (·.text))),
    ("chain", .texts s.chain),
    ("exports", .texts s.exports),
    ("label", .text s.label),
    ("parent", .ofOption s.parent?),
    ("sources", shownPaths s.sources)]

/-- The boot realms of an installation. -/
def shownBoot (l : BootLayout) (r : BootRealms) : Json :=
  .object [
    ("layout", shownLayout l),
    ("platform", shownPlatform r.platform),
    ("realms", .list (r.snapshots.map shownSnapshot))]

/-- An archive that was installed. -/
def shownInstalled (i : Installed) : Json :=
  .object [
    ("name", .text i.name),
    ("from", .text i.source.text),
    ("to", .text i.target.text),
    ("up_to_date", .bool i.upToDate)]

/-- A dependency. -/
def shownDependency (d : Dependency) : Json :=
  .object [
    ("name", .text d.name),
    ("version", .text d.version),
    ("optional", .bool d.optional)]

/-- What an installation did. -/
def shownReport (r : InstallationReport) : Json :=
  .object [
    ("batch", .list (r.batch.map shownInstalled)),
    ("dependencies", .list (r.dependencies.map shownInstalled)),
    ("skipped", .list (r.skipped.map shownDependency))]

end CommandLine

end RealmBoot
