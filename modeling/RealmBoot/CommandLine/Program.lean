import RealmBoot.CommandLine.Invocation
import RealmBoot.CommandLine.Shown
import RealmBoot.Config.Filter
import RealmBoot.Config.Reading
import RealmBoot.Launch.Assembly
import RealmBoot.Launch.Run

/-!
# The Program

What each command does in a world, and the exit code it leads to. A command that launches or shows
an installation loads the configuration, overrides it by what is given on the command line,
validates it, and sets up the log before anything else.

* `CommandLine.dispatch`: the status of a command, or the failure that ended it.
* `CommandLine.execute`: the exit code of a command line and the world afterwards.
-/

namespace RealmBoot

namespace CommandLine

/-- The name of the program. -/
def programName : String := "pipeline-runner"

/-- The program and its version. -/
def versionLine : String := programName ++ " 0.1.1"

/-- What is shown when help is asked for. -/
def helpText : String :=
  "Run a pipeline definition once in an isolated, layered host environment\n\n" ++
  "Usage: " ++ programName ++ " [OPTIONS]\n" ++
  "       " ++ programName ++ " <COMMAND>\n\n" ++
  "Commands: run, lint, check, inspect, assemble, version, help\n"

/-- Loads the configuration. A file other than the default one has to exist. -/
def loadConfig (path : Path) : Effect Failure RunnerConfig := do
  let fs ← Effect.files
  Effect.ofExcept
    ((RunnerConfig.load fs path (!path.same RunnerConfig.defaultFile)).mapError .config)

/-- Loads the configuration, overrides its layout and validates it. -/
def loadValidated (path : Path) (a : LayoutArgs) : Effect Failure RunnerConfig := do
  let config ← loadConfig path
  let config := { config with layout := a.apply config.layout }
  match config.fatalProblems (← Effect.files) with
  | [] => pure config
  | problems => throw (.validation (problems.map (·.message)))

/-- The log file. -/
def logFile (s : Surroundings) (c : RunnerConfig) : Path :=
  let name := programName ++ ".log"
  (⟨c.observability.log.path⟩ : Path).child (if c.rotatesLogs then name ++ "." ++ s.date else name)

/-- Sets up the log: its file, unless records go to the console, and its filter, which gives way to
another one if it is malformed. -/
def setUpLog (s : Surroundings) (c : RunnerConfig) : Effect Failure Unit := do
  unless c.logsToConsole do
    Effect.onFiles (Action.mapFailure .io do
      FileSystem.createDirs ⟨c.observability.log.path⟩
      Action.change (·.touch (logFile s c)))
  let filter := c.filter s
  unless LogFilter.isFilter filter do
    Effect.printError
      ("Failed to parse filter directive: " ++ filter ++ ". Falling back to: info")

/-- Loads and validates the configuration, sets up the log, and gives the layout. -/
def prepare (s : Surroundings) (path : Path) (a : LayoutArgs) :
    Effect Failure (RunnerConfig × BootLayout) := do
  let config ← loadValidated path a
  setUpLog s config
  let layout ← Effect.ofExcept ((BootLayout.ofConfig s config.layout).mapError .config)
  pure (config, layout)

/-- Launches an installation. -/
def launch (s : Surroundings) (path : Path) (a : LayoutArgs) (home : HomeArgs) (mode : LaunchMode)
    (options : RunOptions) : Effect Failure Int := do
  let (config, layout) ← prepare s path a
  Launch.run s layout
    { plugins := config.layout.plugins
      cacheDir? := config.layout.cache? s
      runHome? := home.runHome?
      initHooks? := home.initHooks?
      mode, options }

/-- Shows the boot realms of an installation. -/
def inspect (s : Surroundings) (path : Path) (a : LayoutArgs) : Effect Failure Int := do
  let (_, layout) ← prepare s path a
  match BootRealms.build layout (← Effect.files) with
  | .error e => throw (.discovery e)
  | .ok realms =>
    Effect.printLine (shownBoot layout realms).shown
    pure 0

/-- Installs extension archives and shows what was installed. -/
def assemble (s : Surroundings) (path home : Path) (archives search : List Path) :
    Effect Failure Int := do
  let config ← loadConfig path
  setUpLog s config
  let scanner := Scanner.ofExtensions config.layout.extensionModuleExtensions
  let report ← Assembly.assemble home archives search scanner
  Effect.printLine (shownReport report).shown
  pure 0

/-- Shows the problems of a configuration, numbered from `n`: warnings as output, others as
errors. -/
def showProblems (n : Nat) : List ConfigProblem → Effect Failure Unit
  | [] => pure ()
  | p :: ps => do
    let number := "  " ++ toString n ++ ". "
    if p.isWarning then Effect.printLine (number ++ "⚠️  " ++ p.message)
    else Effect.printError (number ++ "❌ " ++ p.message)
    showProblems (n + 1) ps

/-- Checks a configuration file. -/
def check (path : Path) : Effect Failure Int := do
  let fs ← Effect.files
  let config ← Effect.ofExcept ((RunnerConfig.ofFile fs path).mapError .config)
  Effect.printLine ("✅ 配置文件解析成功: " ++ path.quoted)
  match config.problems fs with
  | [] =>
    Effect.printLine "✅ 配置验证通过"
    pure 0
  | problems =>
    showProblems 1 problems
    if (config.fatalProblems fs).isEmpty then
      Effect.printLine "✅ 配置验证通过（存在警告）"
      pure 0
    else
      Effect.printError "❌ 配置验证失败"
      pure 1

/-- Carries a command out. -/
def dispatch (s : Surroundings) (i : Invocation) : Effect Failure Int :=
  match i.command with
  | .version => do
    Effect.printLine versionLine
    pure 0
  | .check file? => check (file?.getD i.config)
  | .inspect layout => inspect s i.config layout
  | .assemble home archives search => assemble s i.config home archives search
  | .lint a => launch s i.config a.layout a.home .lint a.options
  | .run a _ => do
    let options ← Effect.ofExcept (a.options.mapError .run)
    launch s i.config a.layout a.home .run options

/-- The exit code of a status: its lowest eight bits. -/
def exitCode (status : Int) : Nat := (status % 256).toNat

/-- The exit code of a command line that is malformed. -/
def usageExitCode : Nat := 2

/-- Whether the text of a failure ends its line itself: what is wrong with a configuration is shown
with the place in its text. -/
def endsItsLine : Failure → Bool
  | .config .malformed => true
  | _ => false

/-- Reports a failure. -/
def reportFailure (e : Failure) (w : World) : World :=
  let text := programName ++ ": " ++ e.message ++ if endsItsLine e then "" else "\n"
  { w with errors := w.errors ++ text }

/-- Carries an invocation out. -/
def carryOut (s : Surroundings) (i : Invocation) (w : World) : Nat × World :=
  match (dispatch s i).run.run w with
  | (.ok status, w) => (exitCode status, w)
  | (.error e, w) => (1, reportFailure e w)

/-- Carries a command line out. -/
def execute (s : Surroundings) (args : List String) (w : World) : Nat × World :=
  match Invocation.ofArgs args with
  | .ok i => carryOut s i w
  | .error .helpAsked => (0, { w with output := w.output ++ helpText })
  | .error .versionAsked => (0, { w with output := w.output ++ versionLine ++ "\n" })
  | .error _ => (usageExitCode, { w with errors := w.errors ++ "error: malformed command line\n" })

end CommandLine

end RealmBoot
