import RealmBoot.Files.Access
import RealmBoot.Text.Blank

/-!
# Run Options

What a payload is told about a run: the definition, the job, the cause of the build and its
parameters, and how to go about it. Parameters are kept in the order of their keys, one value to a
key.
-/

namespace RealmBoot

/-- Why a run could not be carried out. -/
inductive RunError where
  /-- A definition file does not exist. -/
  | definitionNotFound (path : Path)
  /-- A build parameter does not have the form `KEY=VALUE`. -/
  | invalidParameter (arg : String)
  /-- A file cannot be accessed. -/
  | io (path : Path) (fault : Fault)
deriving DecidableEq, Repr

/-- The text of a run error. -/
def RunError.message : RunError → String
  | definitionNotFound path => "Pipeline definition not found: " ++ path.quoted
  | invalidParameter arg => "Invalid build parameter '" ++ arg ++ "', expected KEY=VALUE"
  | io path fault => "Failed to access " ++ path.quoted ++ ": " ++ fault.message

/-- Build parameters, by increasing keys. -/
abbrev Parameters := List (String × String)

namespace Parameters

/-- Gives a key a value, in the stead of an earlier one. -/
def set (key value : String) : Parameters → Parameters
  | [] => [(key, value)]
  | (k, v) :: rest =>
    if key < k then (key, value) :: (k, v) :: rest
    else if k < key then (k, v) :: set key value rest
    else (key, value) :: rest

/-- The parameters given one after another. -/
def ofList (given : List (String × String)) : Parameters :=
  given.foldl (fun ps p => set p.1 p.2 ps) []

/-- Reads a parameter: key and value around the first `=`, the key without the blanks around it. -/
def parse (arg : String) : Except RunError (String × String) :=
  match Text.cutAt '=' arg with
  | some (key, value) =>
    if Text.isBlankText key then .error (.invalidParameter arg) else .ok (Text.trim key, value)
  | none => .error (.invalidParameter arg)

/-- Reads parameters one after another. -/
def parseAll : List String → Except RunError (List (String × String))
  | [] => .ok []
  | arg :: args =>
    match parse arg with
    | .error e => .error e
    | .ok p => (parseAll args).map (p :: ·)

end Parameters

/-- The settings of one run. -/
structure RunOptions where
  /-- The definition file, or a directory that holds one. -/
  definition : Path := ⟨"Jenkinsfile"⟩
  /-- The name of the job, folders included. -/
  jobName : String := "job"
  /-- The cause of the build. -/
  cause? : Option String := none
  /-- The number of the build. -/
  buildNumber : Nat := 1
  /-- The build parameters. -/
  parameters : Parameters := []
  /-- Whether scripts run outside the sandbox. -/
  noSandbox : Bool := false
  /-- Whether parameters the pipeline does not declare are kept. -/
  keepUndefinedParameters : Bool := false
  /-- The workspace of the run. -/
  runWorkspace? : Option Path := none
  /-- The definition of the source repository. -/
  scm? : Option Path := none
  /-- Whether the build log is left out. -/
  noBuildLogs : Bool := false
deriving DecidableEq, Repr, Inhabited

namespace RunOptions

/-- The name of the definition file in a directory. -/
def definitionName : String := "Jenkinsfile"

/-- The qualified name under which the platform exposes run options. -/
def typeName : String := "pipeline.runner.RunOptions"

/-- The definition file to load. -/
def definitionFile (o : RunOptions) (fs : FileSystem) : Path :=
  if fs.isDirectory o.definition then o.definition.child definitionName else o.definition

end RunOptions

end RealmBoot
