import RealmBoot.CommandLine.Parser
import RealmBoot.Config.Runner
import RealmBoot.Pipeline.Options

/-!
# Invocations

A command line as the command it stands for, with everything the command needs in place of options:
settings that override the configuration, the run home, and the run options.
-/

namespace RealmBoot

namespace CommandLine

/-- The value given for something, the last one if there are several. -/
def Given.last? (g : Given) (p : Param) : Option String :=
  (g.reverse.find? (·.1 = p)).map (·.2)

/-- All values given for something. -/
def Given.all (g : Given) (p : Param) : List String := (g.filter (·.1 = p)).map (·.2)

/-- The path given for something. -/
def Given.path? (g : Given) (p : Param) : Option Path := (g.last? p).map Path.mk

/-- Whether a flag is given. -/
def Given.has (g : Given) (p : Param) : Bool := (g.last? p).isSome

/-- Settings of the layout that override the configuration. -/
structure LayoutArgs where
  /-- The unpacked host application. -/
  hostDir? : Option Path := none
  /-- A directory of extension modules, or a plugin list. -/
  plugins? : Option Path := none
  /-- The program's own archives. -/
  appRepo? : Option Path := none
  /-- The directory that holds the setup and payload archives. -/
  libPath? : Option Path := none
  /-- The cache of extension archives. -/
  cacheDir? : Option Path := none
deriving DecidableEq, Repr, Inhabited

namespace LayoutArgs

/-- What is given for the layout. -/
def ofGiven (g : Given) : LayoutArgs :=
  { hostDir? := g.path? .hostDir
    plugins? := g.path? .plugins
    appRepo? := g.path? .appRepo
    libPath? := g.path? .libPath
    cacheDir? := g.path? .cacheDir }

/-- The layout with what is given in place of what was configured. -/
def apply (a : LayoutArgs) (l : LayoutConfig) : LayoutConfig :=
  { l with
    hostDir? := a.hostDir?.or l.hostDir?
    plugins := a.plugins?.getD l.plugins
    appRepo? := a.appRepo?.or l.appRepo?
    libPath? := a.libPath?.or l.libPath?
    cacheDir? := a.cacheDir?.or l.cacheDir? }

end LayoutArgs

/-- How the run home is prepared. -/
structure HomeArgs where
  /-- The run home requested. -/
  runHome? : Option Path := none
  /-- The init hooks for the home. -/
  initHooks? : Option Path := none
deriving DecidableEq, Repr, Inhabited

/-- What is given for the run home. -/
def HomeArgs.ofGiven (g : Given) : HomeArgs :=
  { runHome? := g.path? .runHome, initHooks? := g.path? .initHooks }

/-- What is given for a run. -/
structure RunArgs where
  /-- The layout. -/
  layout : LayoutArgs := {}
  /-- The run home. -/
  home : HomeArgs := {}
  /-- The run options, without the build parameters. -/
  base : RunOptions := {}
  /-- The build parameters as given. -/
  args : List String := []
deriving DecidableEq, Repr, Inhabited

namespace RunArgs

/-- What is given for a run. -/
def ofGiven (g : Given) : RunArgs :=
  let base : RunOptions := {}
  { layout := .ofGiven g
    home := .ofGiven g
    args := g.all .arg
    base :=
      { definition := (g.path? .definition).getD base.definition
        jobName := (g.last? .jobName).getD base.jobName
        cause? := g.last? .cause
        buildNumber := ((g.last? .buildNumber).bind number?).getD base.buildNumber
        noSandbox := g.has .noSandbox
        keepUndefinedParameters := g.has .keepUndefinedParameters
        runWorkspace? := g.path? .runWorkspace
        scm? := g.path? .scm
        noBuildLogs := g.has .noBuildLogs } }

/-- The run options; a build parameter may be malformed. -/
def options (a : RunArgs) : Except RunError RunOptions :=
  (Parameters.parseAll a.args).map fun ps => { a.base with parameters := .ofList ps }

end RunArgs

/-- What is given for a check of a definition. -/
structure LintArgs where
  /-- The layout. -/
  layout : LayoutArgs := {}
  /-- The run home. -/
  home : HomeArgs := {}
  /-- The definition file, or a directory that holds one. -/
  definition : Path := ({} : RunOptions).definition
deriving DecidableEq, Repr, Inhabited

/-- What is given for a check of a definition. -/
def LintArgs.ofGiven (g : Given) : LintArgs :=
  { layout := .ofGiven g
    home := .ofGiven g
    definition := (g.path? .definition).getD ({} : RunOptions).definition }

/-- The run options of a check. -/
def LintArgs.options (a : LintArgs) : RunOptions := { definition := a.definition }

/-- A command with what it needs. -/
inductive Command where
  /-- Run a pipeline; `named` says whether the command itself was given. -/
  | run (args : RunArgs) (named : Bool)
  /-- Check a definition. -/
  | lint (args : LintArgs)
  /-- Check a configuration file. -/
  | check (file? : Option Path)
  /-- Show the boot realms. -/
  | inspect (layout : LayoutArgs)
  /-- Install extension archives. -/
  | assemble (home : Path) (archives search : List Path)
  /-- Show the version. -/
  | version
deriving DecidableEq, Repr, Inhabited

/-- A command and the configuration file it goes by. -/
structure Invocation where
  /-- The command. -/
  command : Command
  /-- The configuration file. -/
  config : Path
deriving DecidableEq, Repr, Inhabited

/-- The command with a name and what was given for it. -/
def Command.ofGiven (g : Given) : Option CommandName → Command
  | none => .run (.ofGiven g) false
  | some .run => .run (.ofGiven g) true
  | some .lint => .lint (.ofGiven g)
  | some .check => .check (g.path? .configFile)
  | some .inspect => .inspect (.ofGiven g)
  | some .assemble =>
    .assemble ((g.path? .home).getD ⟨""⟩) ((g.all .plugin).map Path.mk)
      ((g.all .search).map Path.mk)
  | some .version => .version

/-- Reads a command line. -/
def Invocation.ofArgs (args : List String) : Except UsageError Invocation :=
  (parse (expandFlags args)).map fun (name?, g) =>
    { command := .ofGiven g name?, config := (g.path? .config).getD RunnerConfig.defaultFile }

end CommandLine

end RealmBoot
