/-!
# The Grammar of Command Lines

Which commands there are, which options each of them takes, and how the options are written. A
command line names at most one command; without one it is a run.
-/

namespace RealmBoot

namespace CommandLine

/-- What a command line may give. -/
inductive Param where
  | hostDir
  | plugins
  | appRepo
  | libPath
  | cacheDir
  | runHome
  | initHooks
  | definition
  | jobName
  | cause
  | buildNumber
  | arg
  | noSandbox
  | keepUndefinedParameters
  | runWorkspace
  | scm
  | noBuildLogs
  | config
  | configFile
  | home
  | plugin
  | search
  | help
  | version
deriving DecidableEq, Repr

/-- What a value has to be like. -/
inductive ValueKind where
  /-- Any text. -/
  | text
  /-- A path, which is not empty. -/
  | path
  /-- A whole number of 32 bits without a sign. -/
  | number
deriving DecidableEq, Repr

/-- What an option does. -/
inductive Role where
  /-- It is given or not. -/
  | flag
  /-- It has a value. -/
  | one (kind : ValueKind)
  /-- It has a value and may be repeated. -/
  | many (kind : ValueKind)
  /-- It asks for help. -/
  | help
  /-- It asks for the version. -/
  | version
deriving DecidableEq, Repr

/-- An option. -/
structure OptionSpec where
  /-- What it gives. -/
  param : Param
  /-- Its letter, after a single dash. -/
  short? : Option Char := none
  /-- Its name, after two dashes. -/
  long : String
  /-- What it does. -/
  role : Role
deriving DecidableEq, Repr

/-- The commands. -/
inductive CommandName where
  | run
  | lint
  | check
  | inspect
  | assemble
  | version
deriving DecidableEq, Repr

/-- How a command is written. -/
def CommandName.text : CommandName → String
  | run => "run"
  | lint => "lint"
  | check => "check"
  | inspect => "inspect"
  | assemble => "assemble"
  | version => "version"

/-- All commands. -/
def CommandName.all : List CommandName := [run, lint, check, inspect, assemble, version]

/-- The command with a name. -/
def CommandName.ofText? (s : String) : Option CommandName := all.find? (·.text = s)

/-- An option with a path. -/
def pathOption (param : Param) (long : String) (short? : Option Char) : OptionSpec :=
  { param, short?, long, role := .one .path }

/-- An option that is given or not. -/
def flagOption (param : Param) (long : String) (short? : Option Char) : OptionSpec :=
  { param, short?, long, role := .flag }

/-- The options every command takes. -/
def commonOptions : List OptionSpec :=
  [pathOption .config "config" none,
    { param := .help, short? := some 'h', long := "help", role := .help }]

/-- The options for the layout of an installation. -/
def layoutOptions : List OptionSpec :=
  [pathOption .hostDir "host-dir" (some 'w'), pathOption .plugins "plugins" (some 'p'),
    pathOption .appRepo "app-repo" none, pathOption .libPath "lib-path" none,
    pathOption .cacheDir "cache-dir" none]

/-- The options for the run home. -/
def homeOptions : List OptionSpec :=
  [pathOption .runHome "run-home" none, pathOption .initHooks "with-init-hooks" none]

/-- The option for the definition. -/
def definitionOption : OptionSpec := pathOption .definition "file" (some 'f')

/-- The options for a run. -/
def runOptions : List OptionSpec :=
  layoutOptions ++ homeOptions ++
  [definitionOption,
    { param := .jobName, short? := some 'n', long := "job-name", role := .one .text },
    { param := .cause, short? := some 'c', long := "cause", role := .one .text },
    { param := .buildNumber, short? := some 'b', long := "build-number", role := .one .number },
    { param := .arg, short? := some 'a', long := "arg", role := .many .text },
    flagOption .noSandbox "no-sandbox" none,
    flagOption .keepUndefinedParameters "keep-undefined-parameters" (some 'u'),
    pathOption .runWorkspace "run-workspace" none, pathOption .scm "scm" none,
    flagOption .noBuildLogs "no-build-logs" none]

/-- What one command takes. -/
structure CommandSpec where
  /-- Its options. -/
  options : List OptionSpec
  /-- A value without an option name, at most one. -/
  positional? : Option (Param × ValueKind) := none
  /-- What has to be given. -/
  required : List Param := []
deriving Repr

/-- What a command line without a command takes. -/
def rootSpec : CommandSpec :=
  { options := runOptions ++ commonOptions ++
      [{ param := .version, short? := some 'V', long := "version", role := .version }] }

/-- What a command takes. -/
def CommandName.spec : CommandName → CommandSpec
  | run => { options := runOptions ++ commonOptions }
  | lint => { options := layoutOptions ++ homeOptions ++ [definitionOption] ++ commonOptions }
  | check => { options := commonOptions, positional? := some (.configFile, .path) }
  | inspect => { options := layoutOptions ++ commonOptions }
  | assemble =>
    { options :=
        [pathOption .home "home" none,
          { param := .plugin, long := "plugin", role := .many .path },
          { param := .search, long := "search", role := .many .path }] ++ commonOptions
      required := [.home, .plugin] }
  | version => { options := commonOptions }

/-- Flags of several letters after one dash that are known by that form. -/
def letterFlags : List (String × String) :=
  [("-ns", "--no-sandbox"), ("-nbl", "--no-build-logs")]

/-- Writes flags of several letters after one dash in their full form. They would otherwise be read
as one letter with a value. -/
def expandFlags (args : List String) : List String :=
  args.map fun a => (letterFlags.lookup a).getD a

end CommandLine

end RealmBoot
