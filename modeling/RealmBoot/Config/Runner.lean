import RealmBoot.Config.Layout
import RealmBoot.Text.Blank

/-!
# The Configuration

All settings of the program, each with its default, so that an empty document is a configuration.

* `RunnerConfig.problems`: what validation finds.
* `RunnerConfig.fatalProblems`: what keeps the program from starting.
-/

namespace RealmBoot

/-- Where log records go. -/
structure LogConfig where
  /-- `console` or `file`. -/
  output : String := "console"
  /-- Whether there is a new file for every day. -/
  rotate : Bool := false
  /-- The directory of log files. -/
  path : String := "logs/"
deriving DecidableEq, Repr, Inhabited

/-- Which log records there are, and where they go. -/
structure ObservabilityConfig where
  /-- The filter that records have to pass. -/
  filterLevel : String := "info"
  /-- Where they go. -/
  log : LogConfig := {}
deriving DecidableEq, Repr, Inhabited

/-- The settings of the program. -/
structure RunnerConfig where
  /-- The layout. -/
  layout : LayoutConfig := {}
  /-- The log. -/
  observability : ObservabilityConfig := {}
deriving DecidableEq, Repr, Inhabited

namespace RunnerConfig

/-- The configuration file looked for when none is named. -/
def defaultFile : Path := ⟨"runner.toml"⟩

/-- Whether log records go to the console. -/
def logsToConsole (c : RunnerConfig) : Bool := c.observability.log.output = "console"

/-- Whether there is a new log file for every day. -/
def rotatesLogs (c : RunnerConfig) : Bool :=
  c.observability.log.output = "file" && c.observability.log.rotate

/-- The log filter in force: that asked for from outside, unless it is blank. -/
def filter (c : RunnerConfig) (s : Surroundings) : String :=
  match (s.logFilter?.map Text.trim).filter (· ≠ "") with
  | some filter => filter
  | none => c.observability.filterLevel

/-- The levels a log filter may start with. -/
def mainLevels : List String := ["trace", "debug", "info", "warn", "error"]

/-- What a log filter starts with. -/
def mainLevel (filter : String) : String := Text.trim ((Text.piecesOf ',' filter).headD "")

/-- What is wrong with the log settings. -/
def logProblems (o : ObservabilityConfig) : List ConfigProblem :=
  (if mainLevels.contains (mainLevel o.filterLevel) then [] else [.filterLevel o.filterLevel]) ++
  (if ["console", "file"].contains o.log.output then [] else [.logOutput o.log.output]) ++
  (if o.log.output = "file" && Text.isBlankText o.log.path then [.emptyLogPath] else [])

/-- What validation finds. -/
def problems (c : RunnerConfig) (fs : FileSystem) : List ConfigProblem :=
  logProblems c.observability ++ c.layout.problems fs

/-- What keeps the program from starting. -/
def fatalProblems (c : RunnerConfig) (fs : FileSystem) : List ConfigProblem :=
  (c.problems fs).filter (!·.isWarning)

end RunnerConfig

end RealmBoot
