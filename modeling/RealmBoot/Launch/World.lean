import RealmBoot.Files.Change

/-!
# The World of a Run

A run of the program changes files and writes to two channels, its output and its errors. Both are
part of one value, the world, and what the program does is an `Effect` on it: a computation that
hands the world on even when it fails.
-/

namespace RealmBoot

/-- What a run of the program changes. -/
structure World where
  /-- The files. -/
  files : FileSystem
  /-- What has been written as output. -/
  output : String := ""
  /-- What has been written as errors. -/
  errors : String := ""
deriving Inhabited

/-- A computation on a world. When it fails, what it changed before stays changed. -/
abbrev Effect (ε : Type) := ExceptT ε (StateM World)

namespace Effect

variable {ε ε' α : Type}

/-- The files as they are. -/
def files : Effect ε FileSystem := do return (← get).files

/-- Works on the files. -/
def onFiles (x : Action ε α) : Effect ε α :=
  ExceptT.mk fun w =>
    let (result, files) := x.run.run w.files
    (result, { w with files })

/-- Asks something about the files. -/
def look (f : FileSystem → Except ε α) : Effect ε α := onFiles (Action.look f)

/-- Takes a result as it is. -/
def ofExcept : Except ε α → Effect ε α
  | .ok a => pure a
  | .error e => throw e

/-- Reports every failure as another one. -/
def mapFailure (f : ε → ε') (x : Effect ε α) : Effect ε' α :=
  ExceptT.mk do
    match ← x.run with
    | .ok a => pure (.ok a)
    | .error e => pure (.error (f e))

/-- Writes text as output. -/
def print (text : String) : Effect ε Unit :=
  modify fun w => { w with output := w.output ++ text }

/-- Writes a line as output. -/
def printLine (text : String) : Effect ε Unit := print (text ++ "\n")

/-- Writes a line as an error. -/
def printError (text : String) : Effect ε Unit :=
  modify fun w => { w with errors := w.errors ++ text ++ "\n" }

/-- Does something in the end, whether the computation before it fails or not. -/
def ending (x : Effect ε α) (change : World → World) : Effect ε α :=
  ExceptT.mk fun w =>
    let (result, w) := x.run.run w
    (result, change w)

end Effect

end RealmBoot
