import RealmBoot.Path.Basic

/-!
# Problems of a Configuration

What validation finds in a configuration that was read without an error. A problem whose text says
that it is a warning does not keep the program from starting.
-/

namespace RealmBoot

/-- Something validation finds. -/
inductive ConfigProblem where
  /-- The log filter does not start with a level. -/
  | filterLevel (given : String)
  /-- The log output is none that exists. -/
  | logOutput (given : String)
  /-- The log goes to files, but their directory has no name. -/
  | emptyLogPath
  /-- A list of extensions is empty. -/
  | noExtensions (field : String)
  /-- An extension is empty or starts with a dot. -/
  | badExtension (field given : String)
  /-- The fallback policy is none that exists. -/
  | fallbackPolicy (given : String) (known : List String)
  /-- A path is blank. -/
  | blank (field : String)
  /-- The host directory is not set. -/
  | noHostDir
  /-- The host directory is not there. -/
  | missingHostDir (dir : Path)
deriving DecidableEq, Repr

namespace ConfigProblem

/-- The text of a problem. -/
def message : ConfigProblem → String
  | filterLevel given =>
    "Invalid filter level '" ++ given ++
      "', must start with one of: trace, debug, info, warn, error"
  | logOutput given =>
    "Invalid log output '" ++ given ++
      "' (observability.log.output), must be 'console' or 'file'"
  | emptyLogPath => "observability.log.path cannot be empty when logging to a file"
  | noExtensions field => field ++ " cannot be empty"
  | badExtension field given =>
    "Invalid extension '" ++ given ++ "' in " ++ field ++
      ", expected a bare extension such as 'jar'"
  | fallbackPolicy given known =>
    "Invalid layout.fallback_policy '" ++ given ++ "', must be one of: " ++ Text.joined ", " known
  | blank field => field ++ " cannot be empty"
  | noHostDir => "Warning: layout.host_dir is not set, it must be given with -w/--host-dir"
  | missingHostDir dir => "Warning: layout.host_dir " ++ dir.quoted ++ " does not exist"

/-- Whether a problem is a warning only, which its text says. -/
def isWarning (p : ConfigProblem) : Bool := "Warning:".toList.isPrefixOf p.message.toList

end ConfigProblem

end RealmBoot
