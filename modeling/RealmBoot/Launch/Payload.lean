import RealmBoot.Dispatch.Linker
import RealmBoot.Launch.World
import RealmBoot.Pipeline.JobName
import RealmBoot.Pipeline.Lint
import RealmBoot.Pipeline.Options
import RealmBoot.Surroundings

/-!
# The Bundled Payload

The runner checks a request and reports the build; the linter checks a definition without running
it. Both are linked in under a qualified name, and called only if the realms in charge define that
name.
-/

namespace RealmBoot

namespace Payload

/-- The cause of a build that is given none. -/
def defaultCause : String := "Launched by pipeline-runner"

/-- Reads the definition a run is about. -/
def readDefinition (o : RunOptions) : Effect RunError String := do
  let fs ← Effect.files
  let path := o.definitionFile fs
  if !fs.isFile path then throw (.definitionNotFound path)
  match fs.readText path with
  | .error fault => throw (.io path fault)
  | .ok script => pure script

/-- Checks that the definition of the source repository is there, if one is given. -/
def checkScm (o : RunOptions) : Effect RunError Unit := do
  match o.scm? with
  | none => pure ()
  | some scm => unless (← Effect.files).isFile scm do throw (.definitionNotFound scm)

/-- Makes the workspace of the run, if one is given. -/
def makeWorkspace (o : RunOptions) : Effect RunError Unit :=
  match o.runWorkspace? with
  | none => pure ()
  | some dir => Effect.onFiles (Action.mapFailure (.io dir) (FileSystem.createDirs dir))

/-- The build log. -/
def buildLog (s : Surroundings) (o : RunOptions) : List String :=
  ("Started " ++ o.jobName ++ " #" ++ toString o.buildNumber ++ " at " ++ s.time ++ ": " ++
    o.cause?.getD defaultCause) ::
  o.parameters.map (fun p => "  " ++ p.1 ++ "=" ++ p.2) ++ ["Finished: SUCCESS"]

/-- Runs a pipeline and gives its status. A job name that is not allowed is no failure, but leads to
a negative status. -/
def run (s : Surroundings) (o : RunOptions) : Effect RunError Int := do
  match JobName.firstRejection? o.jobName with
  | some (segment, rejection) =>
    Effect.printError ("invalid job name: '" ++ segment ++ "': " ++ rejection.message)
    pure (-1)
  | none =>
    let _ ← readDefinition o
    checkScm o
    makeWorkspace o
    unless o.noBuildLogs do (buildLog s o).forM Effect.printLine
    pure 0

/-- Checks a definition and gives the status: zero if it has no problems. -/
def lint (o : RunOptions) : Effect RunError Int := do
  let script ← readDefinition o
  Effect.printLine "Linting..."
  match Lint.problems script with
  | [] =>
    Effect.printLine "Done"
    pure 0
  | problems =>
    problems.forM fun p => Effect.printLine p.text
    pure 1

/-- What callers of the runner agree on with it. -/
def runnerContract : Contract :=
  ⟨"pipeline.runner.payload.Runner", ⟨"run", [RunOptions.typeName]⟩⟩

/-- What callers of the linter agree on with it. -/
def linterContract : Contract :=
  ⟨"pipeline.runner.payload.Linter", ⟨"lint", [RunOptions.typeName]⟩⟩

/-- The runners linked in. -/
def runnerLinker (s : Surroundings) : Linker (RunOptions → Effect RunError Int) :=
  ({} : Linker (RunOptions → Effect RunError Int)).link runnerContract.typeName
    runnerContract.method (run s)

/-- The linters linked in. -/
def linterLinker : Linker (RunOptions → Effect RunError Int) :=
  ({} : Linker (RunOptions → Effect RunError Int)).link linterContract.typeName
    linterContract.method lint

end Payload

end RealmBoot
