import RealmBoot.Config.Runner
import RealmBoot.Toml.Printer

/-!
# Reading and Writing a Configuration

A configuration is written as a TOML document. Settings that are missing have their defaults, and
unknown ones mean nothing. A group of settings may also be given as the list of their values in the
order of the settings.
-/

namespace RealmBoot

/-- What a type is read from: a value of a document. -/
abbrev Setting (α : Type) := Toml.Value → Option α

namespace Setting

/-- A text. -/
def text : Setting String
  | .string s => some s
  | _ => none

/-- A path. -/
def path : Setting Path
  | .string s => some ⟨s⟩
  | _ => none

/-- A truth value. -/
def flag : Setting Bool
  | .boolean b => some b
  | _ => none

/-- A list of texts. -/
def texts : Setting (List String)
  | .array _ items => items.mapM text
  | _ => none

/-- A group of settings under their names. A date counts as a group without any. -/
def group (names : List String) : Setting Toml.Entries
  | .table _ entries => some entries
  | .array _ items => some (names.zip items)
  | .datetime _ => some []
  | _ => none

/-- A setting of a group, or its default. -/
def orDefault {α : Type} (es : Toml.Entries) (name : String) (s : Setting α) (default : α) :
    Option α :=
  match es.get? name with
  | none => some default
  | some v => s v

/-- A setting of a group that may be missing. -/
def optional {α : Type} (es : Toml.Entries) (name : String) (s : Setting α) : Option (Option α) :=
  match es.get? name with
  | none => some none
  | some v => (s v).map some

end Setting

namespace LayoutConfig

/-- The names of the layout settings. -/
def names : List String :=
  ["host_dir", "plugins", "app_repo", "lib_path", "cache_dir", "host_lib_subdir", "host_launcher",
    "compat_path", "payload_path", "module_extensions", "extension_module_extensions",
    "fallback_policy"]

/-- Reads the layout settings. -/
def setting : Setting LayoutConfig := fun v => do
  let es ← Setting.group names v
  let base : LayoutConfig := {}
  some {
    hostDir? := ← Setting.optional es "host_dir" .path
    plugins := ← Setting.orDefault es "plugins" .path base.plugins
    appRepo? := ← Setting.optional es "app_repo" .path
    libPath? := ← Setting.optional es "lib_path" .path
    cacheDir? := ← Setting.optional es "cache_dir" .path
    hostLibSubdir := ← Setting.orDefault es "host_lib_subdir" .text base.hostLibSubdir
    hostLauncher := ← Setting.orDefault es "host_launcher" .text base.hostLauncher
    compatPath := ← Setting.orDefault es "compat_path" .text base.compatPath
    payloadPath := ← Setting.orDefault es "payload_path" .text base.payloadPath
    moduleExtensions := ← Setting.orDefault es "module_extensions" .texts base.moduleExtensions
    extensionModuleExtensions := ← Setting.orDefault es "extension_module_extensions" .texts
      base.extensionModuleExtensions
    fallbackPolicy := ← Setting.orDefault es "fallback_policy" .text base.fallbackPolicy }

/-- The layout settings as entries of a document. -/
def entries (l : LayoutConfig) : Toml.Entries :=
  let text (name s : String) : Toml.Entries := [(name, .string s)]
  let path? (name : String) (p? : Option Path) : Toml.Entries :=
    p?.toList.map fun p => (name, .string p.text)
  let texts (name : String) (ss : List String) : Toml.Entries :=
    [(name, .array .inline (ss.map .string))]
  path? "host_dir" l.hostDir? ++ text "plugins" l.plugins.text ++ path? "app_repo" l.appRepo? ++
  path? "lib_path" l.libPath? ++ path? "cache_dir" l.cacheDir? ++
  text "host_lib_subdir" l.hostLibSubdir ++ text "host_launcher" l.hostLauncher ++
  text "compat_path" l.compatPath ++ text "payload_path" l.payloadPath ++
  texts "module_extensions" l.moduleExtensions ++
  texts "extension_module_extensions" l.extensionModuleExtensions ++
  text "fallback_policy" l.fallbackPolicy

end LayoutConfig

namespace LogConfig

/-- Reads where log records go. -/
def setting : Setting LogConfig := fun v => do
  let es ← Setting.group ["output", "rotate", "path"] v
  let base : LogConfig := {}
  some {
    output := ← Setting.orDefault es "output" .text base.output
    rotate := ← Setting.orDefault es "rotate" .flag base.rotate
    path := ← Setting.orDefault es "path" .text base.path }

end LogConfig

namespace ObservabilityConfig

/-- Reads the log settings. -/
def setting : Setting ObservabilityConfig := fun v => do
  let es ← Setting.group ["filter_level", "log"] v
  let base : ObservabilityConfig := {}
  some {
    filterLevel := ← Setting.orDefault es "filter_level" .text base.filterLevel
    log := ← Setting.orDefault es "log" LogConfig.setting base.log }

end ObservabilityConfig

namespace RunnerConfig

/-- Reads a configuration from the text of a document. -/
def parse (text : String) : Except ConfigError RunnerConfig :=
  let config? : Option RunnerConfig := do
    let es ← Toml.parse text
    some {
      layout := ← Setting.orDefault es "layout" LayoutConfig.setting {}
      observability := ← Setting.orDefault es "observability" ObservabilityConfig.setting {} }
  match config? with
  | some config => .ok config
  | none => .error .malformed

/-- Writes a configuration as a document. -/
def written (c : RunnerConfig) : String :=
  let o := c.observability
  Toml.document [
    (["layout"], c.layout.entries),
    (["observability"], [("filter_level", .string o.filterLevel)]),
    (["observability", "log"],
      [("output", .string o.log.output), ("rotate", .boolean o.log.rotate),
        ("path", .string o.log.path)])]

/-- Reads the configuration in a file. -/
def ofFile (fs : FileSystem) (path : Path) : Except ConfigError RunnerConfig :=
  if !fs.pathExists path then .error (.fileNotFound path)
  else if !fs.isFile path then .error (.notAFile path)
  else match fs.readText path with
    | .error fault => .error (.unreadable path fault)
    | .ok text => parse text

/-- Loads the configuration in a file. A file that was not asked for by name may be missing. -/
def load (fs : FileSystem) (path : Path) (byName : Bool) : Except ConfigError RunnerConfig :=
  if !byName && !fs.pathExists path then .ok {} else ofFile fs path

end RunnerConfig

end RealmBoot
