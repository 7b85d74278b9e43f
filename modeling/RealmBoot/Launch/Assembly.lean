import RealmBoot.Extension.Installation
import RealmBoot.Launch.Failure
import RealmBoot.Launch.World

/-!
# Assembling Extension Modules

A batch of extension archives is installed below a home, together with the dependencies their
manifests declare, which are looked up in search directories.
-/

namespace RealmBoot

namespace Assembly

/-- Reads the descriptors of archives given by path. -/
def descriptors (fs : FileSystem) : List Path → Except Failure (List Descriptor)
  | [] => .ok []
  | path :: paths =>
    match Location.ofPath fs path with
    | .error e => .error (.discovery e)
    | .ok archive =>
      match Descriptor.ofArchive fs archive with
      | .error e => .error (.resolution e)
      | .ok d => (descriptors fs paths).map (d :: ·)

/-- Works on the files of a world and on a scope, which is given up afterwards. -/
def inScope {α : Type} (scope : Scope) (x : SiteAction α) : Effect ResolutionError α :=
  ExceptT.mk fun w =>
    let (result, site) := x.run.run { files := w.files, scope }
    (result, { w with files := site.files })

/-- Where a home keeps its extension archives. -/
def pluginsDir (home : Path) : Path := home.child "plugins"

/-- Installs a batch of archives into a home. -/
def assemble (home : Path) (archives search : List Path) (scanner : Scanner) :
    Effect Failure InstallationReport := do
  let fs ← Effect.files
  let batch ← Effect.ofExcept (descriptors fs archives)
  match Scope.scan scanner fs search with
  | .error e => throw (.discovery e)
  | .ok scope =>
    Effect.mapFailure .resolution (inScope scope (Installation.run (pluginsDir home) batch))

end Assembly

end RealmBoot
