import RealmBoot.Files.Resolve

/-!
# Looking at Files

Reading never changes the file system. Unless said otherwise a link is followed: a path denotes
what its link leads to.

What a path denotes can be read by everyone, as there are no permissions. All that can go wrong lies
with the path: it leads nowhere, it is too long or leads over too many links, or what it denotes is
not of the kind that is asked for. A modification time is only had of a file. That of a directory
is not kept, so a directory is never as new as anything.
-/

namespace RealmBoot

namespace FileSystem

/-- The node that a path has led to. -/
def nodeAt (fs : FileSystem) : Lead → Except Fault Node
  | .arrived q =>
    match fs.node? q with
    | some n => .ok n
    | none => .error .notFound
  | .vacant _ => .error .notFound
  | .adrift => .ok .directory

/-- The node a path denotes. -/
def stat (fs : FileSystem) (p : Path) : Except Fault Node := fs.lead .followed p >>= fs.nodeAt

/-- The node a path names, which is the link itself if it names a link. -/
def linkStat (fs : FileSystem) (p : Path) : Except Fault Node := fs.lead .kept p >>= fs.nodeAt

/-- Whether a path denotes anything. -/
def pathExists (fs : FileSystem) (p : Path) : Bool := (fs.stat p).toOption.isSome

/-- Whether a path denotes a directory. -/
def isDirectory (fs : FileSystem) (p : Path) : Bool :=
  (fs.stat p).toOption.any (·.kind = .directory)

/-- Whether a path denotes a file. -/
def isFile (fs : FileSystem) (p : Path) : Bool :=
  (fs.stat p).toOption.any (·.kind = .file)

/-- The bytes of the file a path denotes. -/
def read (fs : FileSystem) (p : Path) : Except Fault ByteArray := do
  match ← fs.stat p with
  | .file bytes _ => pure bytes
  | _ => throw .isDirectory

/-- The text of the file a path denotes. -/
def readText (fs : FileSystem) (p : Path) : Except Fault String := do
  let bytes ← fs.read p
  match String.fromUTF8? bytes with
  | some s => pure s
  | none => throw .notText

/-- The modification time of the file a path denotes. That of a directory is not kept; it agrees
with none. -/
def modified (fs : FileSystem) (p : Path) : Except Fault (Option Stamp) := do
  match ← fs.stat p with
  | .file _ t => pure (some t)
  | _ => pure none

/-- The names in the directory a path denotes with the kinds of their nodes, sorted by name. -/
def list (fs : FileSystem) (p : Path) : Except Fault (List (String × Kind)) := do
  match ← fs.lead .followed p with
  | .arrived q => if fs.isDirectoryAt q then pure (fs.children q) else throw .notDirectory
  | .vacant _ => throw .notFound
  | .adrift => pure []

end FileSystem

end RealmBoot
