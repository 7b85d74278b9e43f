import RealmBoot.Config.Failure
import RealmBoot.Dispatch.Target
import RealmBoot.Extension.Failure
import RealmBoot.Pipeline.Options
import RealmBoot.Realm.Graph

/-!
# Failures of a Run

Everything that can end a run of the program, gathered from its parts, with the text that is shown
in the end.
-/

namespace RealmBoot

/-- Why a directory cannot be the run home. -/
inductive RunHomeFault where
  /-- It is no directory. -/
  | notDirectory
  /-- It holds something already. -/
  | notEmpty
deriving DecidableEq, Repr

/-- The text of a run home fault. -/
def RunHomeFault.text : RunHomeFault → String
  | notDirectory => "is not a directory"
  | notEmpty => "directory is not empty"

/-- Why there are no init hooks in a directory. -/
inductive HooksFault where
  /-- It is no directory. -/
  | notDirectory
  /-- It holds nothing. -/
  | empty
deriving DecidableEq, Repr

/-- The text of a hooks fault. -/
def HooksFault.text : HooksFault → String
  | notDirectory => "is not a directory"
  | empty => "directory does not contain any hook"

/-- What ends a run of the program. -/
inductive Failure where
  /-- There is no usable configuration. -/
  | config (error : ConfigError)
  /-- Validation found what keeps the program from starting. -/
  | validation (problems : List String)
  /-- Archives cannot be found or read. -/
  | discovery (error : DiscoveryError)
  /-- The target of a call could not be located. -/
  | targetNotFound (error : TargetNotFound)
  /-- A fallback realm cannot be bound. -/
  | bind (error : BindError)
  /-- Extension archives cannot be installed. -/
  | resolution (error : ResolutionError)
  /-- The payload failed. -/
  | run (error : RunError)
  /-- A directory cannot be the run home. -/
  | runHome (path : Path) (fault : RunHomeFault)
  /-- There are no init hooks in a directory. -/
  | initHooks (path : Path) (fault : HooksFault)
  /-- A line of a plugin list is malformed. -/
  | pluginList (path : Path) (line : Nat) (found : String)
  /-- A plugin is not in the cache. -/
  | pluginNotCached (name version : String) (path : Path)
  /-- A plugin list is given, but there is no cache to take plugins from. -/
  | noCache
  /-- A file cannot be accessed. -/
  | io (fault : Fault)
  /-- A directory tree cannot be walked. -/
  | walk (fault : WalkFault)

/-- The text of a failure. -/
def Failure.message : Failure → String
  | config error => "Configuration error: " ++ error.message
  | validation problems =>
    "Configuration validation failed: " ++ Text.joined "; " problems
  | discovery error => "Archive discovery failed: " ++ error.message
  | targetNotFound error => error.report
  | bind error => error.message
  | resolution error => "Dependency resolution failed: " ++ error.message
  | run error => error.message
  | runHome path fault => "--run-home " ++ fault.text ++ ": " ++ path.quoted
  | initHooks path fault => "--with-init-hooks " ++ fault.text ++ ": " ++ path.quoted
  | pluginList path line found =>
    path.quoted ++ " line " ++ toString line ++ ": expected `name[:version]`, found `" ++ found ++
      "`"
  | pluginNotCached name version path =>
    "Extension module " ++ name ++ ":" ++ version ++ " is not cached at " ++ path.quoted
  | noCache =>
    "Application error: no cache directory available for the plugin list, set --cache-dir"
  | io fault => "I/O error: " ++ fault.message
  | walk fault => "I/O error: " ++ fault.message

end RealmBoot
