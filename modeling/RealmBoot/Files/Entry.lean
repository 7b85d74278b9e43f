import RealmBoot.Files.Change
import RealmBoot.Text.Hexadecimal

/-!
# File Entries

A file tree is described by a list of entries, each of which puts one thing under a path after
making the directories above it.
-/

namespace RealmBoot

/-- A description of one thing in a file tree. -/
inductive FileEntry where
  /-- A directory. -/
  | directory (path : Path)
  /-- A symbolic link with its text. -/
  | link (path target : Path)
  /-- A file with its modification time. -/
  | file (path : Path) (bytes : ByteArray) (modified : Stamp)
deriving DecidableEq

namespace FileEntry

/-- The path an entry is about. -/
def path : FileEntry → Path
  | directory path => path
  | link path _ => path
  | file path .. => path

/-- Makes what an entry describes, without the directories above it. -/
def make : FileEntry → Action Fault Unit
  | directory path => FileSystem.createDirs path
  | link path target => Action.change (·.createLink target path)
  | file path bytes modified => do
    Action.change (·.write path bytes)
    Action.change (·.setModified path modified)

/-- Makes what an entry describes, after the directories above it. -/
def place (e : FileEntry) : Action Fault Unit := do
  match e.path.parent? with
  | some above => FileSystem.createDirs above
  | none => pure ()
  e.make

/-- The bytes written as pairs of hexadecimal digits. -/
def bytes? : List Char → Option (List UInt8)
  | [] => some []
  | [_] => none
  | a :: b :: rest => do
    let high ← Text.hexDigit? a
    let low ← Text.hexDigit? b
    let more ← bytes? rest
    some ((16 * high + low).toUInt8 :: more)

/-- The content of a file written as pairs of hexadecimal digits. -/
def content? (s : String) : Option ByteArray := (bytes? s.toList).map fun bs => ⟨bs.toArray⟩

end FileEntry

end RealmBoot
