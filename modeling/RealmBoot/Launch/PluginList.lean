import RealmBoot.Launch.RunHome

/-!
# Plugin Lists

The extension modules of a run are either those in a directory, or those named by a plugin list.
Such a list has one `name` or `name:version` to a line; what follows a `#` does not count. The
modules it names are linked from the cache into the run home.

* `PluginList.parse`: reads a list.
* `PluginList.prepare`: the directory the host loads extension modules from.
-/

namespace RealmBoot

/-- A module named by a plugin list. -/
structure PluginEntry where
  /-- Its short name. -/
  name : String
  /-- Its version. -/
  version : String
deriving DecidableEq, Repr, Inhabited

/-- Where a module is in a cache. -/
def PluginEntry.cachePath (e : PluginEntry) (cacheDir : Path) : Path :=
  ((cacheDir.child "plugins").child e.name).child (e.name ++ "-" ++ e.version ++ ".hpi")

namespace PluginList

/-- The version of a module named without one. -/
def latest : String := "latest"

/-- What a line says: its text without the comment and the blanks around it. -/
def content (line : List Char) : List Char :=
  Text.trimChars ((Text.cut '#' line).elim line (·.1))

/-- Reads the content of a line that says something. -/
def entry? (line : List Char) : Option PluginEntry :=
  let (name, version) :=
    match Text.cut ':' line with
    | some (name, version) => (Text.trimChars name, Text.trimChars version)
    | none => (line, latest.toList)
  if name.isEmpty || version.isEmpty || name.any (fun c => c = '/' || c = '\\') then none
  else some ⟨String.ofList name, String.ofList version⟩

/-- Reads lines, the first of them having the number `n`. An error gives the number and the content
of the line. -/
def readLines (n : Nat) : List (List Char) → Except (Nat × String) (List PluginEntry)
  | [] => .ok []
  | line :: rest =>
    let line := content line
    if line.isEmpty then readLines (n + 1) rest
    else match entry? line with
      | none => .error (n, String.ofList line)
      | some e => (readLines (n + 1) rest).map (e :: ·)

/-- Reads the plugin list that stands in a file. -/
def parse (path : Path) (text : String) : Except Failure (List PluginEntry) :=
  match readLines 1 (Text.lines text.toList) with
  | .ok entries => .ok entries
  | .error (line, found) => .error (.pluginList path line found)

/-- Links one module from the cache into a directory, in the stead of an earlier link. -/
def place (cacheDir target : Path) (e : PluginEntry) : Action Failure Unit := do
  let fs ← get
  match fs.absolute (e.cachePath cacheDir) with
  | .error fault => throw (.io fault)
  | .ok cached =>
    if !fs.isFile cached then throw (.pluginNotCached e.name e.version cached)
    let link := target.child (e.name ++ ".jpi")
    if (fs.linkStat link).toOption.isSome then
      Action.mapFailure .io (Action.change (·.removeFile link))
    Action.mapFailure .io (Action.change (·.createLink cached link))

/-- Links modules one after another. -/
def placeAll (cacheDir target : Path) : List PluginEntry → Action Failure Unit
  | [] => pure ()
  | e :: es => do
    place cacheDir target e
    placeAll cacheDir target es

/-- The directory the host loads extension modules from: a directory as it is, or the one in the
home that the modules of a plugin list are linked into. -/
def prepare (plugins : Path) (home : RunHome) (cacheDir? : Option Path) : Effect Failure Path := do
  let fs ← Effect.files
  if fs.isDirectory plugins then return plugins
  if !fs.pathExists plugins then
    throw (.discovery (.missingDirectory plugins "plugins directory or plugin list file"))
  match fs.readText plugins with
  | .error e => throw (.io e)
  | .ok text =>
    let entries ← Effect.ofExcept (parse plugins text)
    match cacheDir? with
    | none => throw .noCache
    | some cacheDir =>
      let target ← home.pluginsDir
      Effect.onFiles (placeAll cacheDir target entries)
      pure target

end PluginList

end RealmBoot
