import RealmBoot.CommandLine.Parser
import RealmBoot.Files.Entry
import RealmBoot.Launch.World
import RealmBoot.Surroundings

/-!
# Scenes

A scene is a world that the program can be tried out in, written as text. Each line has a word and
what belongs to it, separated by tabs:

* `directory`, `link` and `file` put something into the file tree, a file with its modification time
  in seconds and its content in hexadecimal digits;
* `here` names the working directory;
* `program`, `home`, `temporary`, `time`, `date` and `filter` say what surrounds the run.

Lines take effect one after another, and empty ones mean nothing.
-/

namespace RealmBoot

namespace CommandLine

/-- A world with what surrounds it. -/
structure Scene where
  /-- The files. -/
  files : FileSystem := {}
  /-- What surrounds a run. -/
  surroundings : Surroundings :=
    { executable := ⟨"/bin/pipeline-runner"⟩, homeDir? := none, tempDir := ⟨"/tmp"⟩
      time := "", date := "", logFilter? := none }

/-- Why a text is not a scene. -/
inductive SceneError where
  /-- A line means nothing. -/
  | malformed (line : Nat)
  /-- What a line describes cannot be made. -/
  | fault (line : Nat) (fault : Fault)
deriving DecidableEq, Repr

/-- The text of a scene error. -/
def SceneError.message : SceneError → String
  | malformed n => "line " ++ toString n ++ ": malformed line"
  | fault n e => "line " ++ toString n ++ ": " ++ e.message

namespace Scene

/-- What one line says. -/
inductive Line where
  /-- It puts something into the file tree. -/
  | entry (entry : FileEntry)
  /-- It names the working directory. -/
  | here (path : Path)
  /-- It changes what surrounds the run. -/
  | around (change : Surroundings → Surroundings)

/-- Reads the fields of a line. -/
def Line.ofFields? : List String → Option Line
  | ["directory", path] => some (.entry (.directory ⟨path⟩))
  | ["link", path, target] => some (.entry (.link ⟨path⟩ ⟨target⟩))
  | ["file", path, seconds, content] => do
    let seconds ← wholeNumber? seconds
    let bytes ← FileEntry.content? content
    some (.entry (.file ⟨path⟩ bytes (.at seconds)))
  | ["here", path] => some (.here ⟨path⟩)
  | ["program", path] => some (.around fun s => { s with executable := ⟨path⟩ })
  | ["home", path] => some (.around fun s => { s with homeDir? := some ⟨path⟩ })
  | ["temporary", path] => some (.around fun s => { s with tempDir := ⟨path⟩ })
  | ["time", time] => some (.around fun s => { s with time })
  | ["date", date] => some (.around fun s => { s with date })
  | ["filter", filter] => some (.around fun s => { s with logFilter? := some filter })
  | _ => none

/-- The scene after a line. -/
def add (scene : Scene) : Line → Except Fault Scene
  | .entry e =>
    let (result, files) := e.place.run.run scene.files
    result.map fun _ => { scene with files }
  | .here path => (scene.files.place path).map fun p =>
      { scene with files := { scene.files with workDir? := some p } }
  | .around change => .ok { scene with surroundings := change scene.surroundings }

/-- Adds lines to a scene, the first of them having the number `n`. -/
def addLines (scene : Scene) (n : Nat) : List String → Except SceneError Scene
  | [] => .ok scene
  | line :: rest =>
    if line = "" then addLines scene (n + 1) rest
    else match Line.ofFields? (Text.piecesOf '\t' line) with
      | none => .error (.malformed n)
      | some l =>
        match scene.add l with
        | .error e => .error (.fault n e)
        | .ok scene => addLines scene (n + 1) rest

/-- Reads a scene. -/
def parse (text : String) : Except SceneError Scene := addLines {} 1 (Text.linesOf text)

/-- The world of a scene before anything was written. -/
def world (scene : Scene) : World := { files := scene.files }

end Scene

end CommandLine

end RealmBoot
