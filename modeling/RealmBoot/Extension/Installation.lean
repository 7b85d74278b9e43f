import RealmBoot.Extension.Descriptor
import RealmBoot.Extension.Scope
import RealmBoot.Files.Change

/-!
# Installation

A batch of extension archives is installed into a directory together with what they depend on: an
archive of the batch as `<short name>.jpl`, a dependency as `<short name>.jpi`. The work is a list
of steps that is laid out beforehand, each archive followed by its declared dependencies; a failing
step ends it, and what the steps before it did stays.

An archive that is installed already, by the evidence of its modification time, is not copied again.

* `Installation.steps`: the list of steps.
* `Installation.run`: makes the target directory and takes the steps.
-/

namespace RealmBoot

/-- An archive placed into the target directory. -/
structure Installed where
  /-- Its short name. -/
  name : String
  /-- Where it came from. -/
  source : Path
  /-- Where it was placed. -/
  target : Path
  /-- Whether the target had the modification time of the source already. -/
  upToDate : Bool
deriving DecidableEq, Repr, Inhabited

/-- What an installation did. -/
structure InstallationReport where
  /-- The archives of the batch. -/
  batch : List Installed := []
  /-- The dependencies found in the search scope. -/
  dependencies : List Installed := []
  /-- Optional dependencies that were not found. -/
  skipped : List Dependency := []
deriving DecidableEq, Repr, Inhabited

/-- The short names of all archives that are in the target directory afterwards. -/
def InstallationReport.installedNames (r : InstallationReport) : OrderedSet String :=
  .ofList ((r.batch ++ r.dependencies).map (·.name))

/-- What an installation works on: the files, and the scope with what it has read. -/
structure Site where
  /-- The files. -/
  files : FileSystem
  /-- The archives to look dependencies up in. -/
  scope : Scope
deriving Inhabited

/-- A computation on a site. When it fails, what it changed before stays changed. -/
abbrev SiteAction := ExceptT ResolutionError (StateM Site)

namespace SiteAction

/-- Works on the files of a site. -/
def onFiles {α : Type} (x : Action ResolutionError α) : SiteAction α :=
  ExceptT.mk fun site =>
    let (result, files) := x.run.run site.files
    (result, { site with files })

/-- Looks a short name up in the scope of a site. -/
def lookup (name : String) : SiteAction (Option Location) :=
  ExceptT.mk fun site =>
    let (result, scope) := site.scope.find site.files name
    (result.mapError .discovery, { site with scope })

end SiteAction

namespace Installation

/-- Whether two files are known to have the same modification time. Of a directory no time is known,
so that one is never taken for another thing of the same time. -/
def sameTime (fs : FileSystem) (source target : Path) : Bool :=
  match fs.modified source, fs.modified target with
  | .ok (some t), .ok (some t') => t = t'
  | _, _ => false

/-- Copies a file and gives the copy the modification time of the source. -/
def copyStamped (source target : Path) : Action Fault Unit := do
  let stamp? ← Action.look (·.modified source)
  Action.change (·.copy source target)
  match stamp? with
  | none => pure ()
  | some stamp => Action.change (·.setModified target stamp)

/-- Places an archive, unless the target has its modification time already. -/
def install (name : String) (source target : Path) : Action ResolutionError Installed :=
  Action.mapFailure (.copy source target) do
    let _ ← Action.look (·.modified source)
    if sameTime (← get) source target then
      pure { name, source, target, upToDate := true }
    else
      copyStamped source target
      pure { name, source, target, upToDate := false }

/-- One step of an installation. -/
inductive Step where
  /-- Install an archive of the batch. -/
  | own (descriptor : Descriptor)
  /-- See to a dependency declared by the module with the given short name. -/
  | declared (dependency : Dependency) (requiredBy : String)
deriving DecidableEq, Repr

/-- The steps for a batch: each archive, followed by its dependencies. -/
def steps (batch : List Descriptor) : List Step :=
  batch.flatMap fun d => .own d :: d.dependencies.map (.declared · d.shortName)

/-- Where an archive of the batch is placed. -/
def ownTarget (target : Path) (name : String) : Path := target.child (name ++ ".jpl")

/-- Where a dependency is placed. -/
def dependencyTarget (target : Path) (name : String) : Path := target.child (name ++ ".jpi")

/-- Whether nothing has to be done for a dependency: it belongs to the batch, or was installed for
an earlier declaration. -/
def settled (batch : List String) (report : InstallationReport) (name : String) : Bool :=
  batch.contains name || (report.dependencies.map (·.name)).contains name

/-- Takes one step. -/
def take (target : Path) (batch : List String) (report : InstallationReport) :
    Step → SiteAction InstallationReport
  | .own d => do
    let done ← SiteAction.onFiles
      (install d.shortName d.archive.path (ownTarget target d.shortName))
    pure { report with batch := report.batch ++ [done] }
  | .declared dependency requiredBy =>
    if settled batch report dependency.name then pure report
    else do
      match ← SiteAction.lookup dependency.name with
      | some archive =>
        let done ← SiteAction.onFiles
          (install dependency.name archive.path (dependencyTarget target dependency.name))
        pure { report with dependencies := report.dependencies ++ [done] }
      | none =>
        if dependency.optional then
          pure { report with skipped := report.skipped ++ [dependency] }
        else
          throw (.missingDependency dependency.text requiredBy (← get).scope.text)

/-- Takes steps one after another. -/
def takeAll (target : Path) (batch : List String) (report : InstallationReport) :
    List Step → SiteAction InstallationReport
  | [] => pure report
  | step :: rest => do
    let report ← take target batch report step
    takeAll target batch report rest

/-- Installs a batch into a directory, which is made if it is missing. -/
def run (target : Path) (batch : List Descriptor) : SiteAction InstallationReport := do
  SiteAction.onFiles
    (Action.mapFailure (.discovery <| .io target ·) (FileSystem.createDirs target))
  takeAll target (batch.map (·.shortName)) {} (steps batch)

end Installation

end RealmBoot
