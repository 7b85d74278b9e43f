import RealmBoot.Files.Tree

/-!
# The File System as a Value

A file system is the contents of the root directory, with the directory that relative paths start
from. Every operation on files is a function on this value, so what an operation leaves alone can
be stated by looking places up before and after.

* `FileSystem.node?_put`, `FileSystem.node?_remove`: what is found after a node was put or removed.
-/

namespace RealmBoot

/-- A file system, with the directory that relative paths start from. -/
structure FileSystem where
  /-- What the root directory holds. -/
  root : Contents := []
  /-- The working directory; there is none once it was removed. -/
  workDir? : Option Place := some []
  /-- The number of writes so far. -/
  ticks : Nat := 0
deriving Inhabited

namespace FileSystem

/-- The node at a place; the root is a directory. -/
def node? (fs : FileSystem) (p : Place) : Option Node := fs.root.node? p

/-- Whether a place holds a directory. -/
def isDirectoryAt (fs : FileSystem) (p : Place) : Bool := fs.node? p == some .directory

/-- Puts a node at a place, in the stead of what was there. -/
def put (fs : FileSystem) (p : Place) (n : Node) : FileSystem :=
  { fs with root := fs.root.set (some n.tree) p }

/-- Puts a freshly written file at a place. -/
def putFile (fs : FileSystem) (p : Place) (bytes : ByteArray) : FileSystem :=
  { fs.put p (.file bytes (.written fs.ticks)) with ticks := fs.ticks + 1 }

/-- Removes a place and everything below it, the working directory too if it is there. -/
def remove (fs : FileSystem) (p : Place) : FileSystem :=
  { fs with root := fs.root.set none p, workDir? := fs.workDir?.filter (!p.isPrefixOf ·) }

/-- What a directory holds. -/
def contents (fs : FileSystem) (p : Place) : Contents :=
  match fs.root.at? p with
  | some (.directory cs) => cs
  | _ => []

/-- The names in a directory with the kinds of their nodes, in increasing order. -/
def children (fs : FileSystem) (p : Place) : List (String × Kind) := (fs.contents p).listing

/-- Removes everything below a place. -/
def clear (fs : FileSystem) (p : Place) : FileSystem :=
  (fs.children p).foldl (fun fs (name, _) => fs.remove (p ++ [name])) fs

/-- The working directory as a location. -/
def workLocation (fs : FileSystem) : Location := ⟨fs.workDir?.getD []⟩

/-- Whether a path starts from a working directory that was removed. -/
def isAdrift (fs : FileSystem) (p : Path) : Bool :=
  p.text ≠ "" && !p.isAbsolute && fs.workDir?.isNone

/-- At the top there is always a directory. -/
@[simp] theorem node?_root (fs : FileSystem) : fs.node? [] = some .directory := rfl

/-- What is found after a node was put into a directory: the node has taken the place of what was
there with all that it held, and nothing else has changed. -/
theorem node?_put {fs : FileSystem} {p q : Place} {n : Node} (hp : p ≠ [])
    (h : fs.node? p.dropLast = some .directory) :
    (fs.put p n).node? q =
      if p <+: q then if q = p then some n else none else fs.node? q := by
  split
  · next hq =>
    obtain ⟨r, rfl⟩ := hq
    have key := @Contents.at?_set (some n.tree) p r fs.root hp h
    simp only [node?, put, Contents.node?, key]
    cases n <;> cases r <;> simp [Node.tree, Contents.at?, FileTree.node]
  · next hq => exact Contents.node?_set_of_not_prefix hq

/-- What is found after a place was removed with all that lay below it. -/
theorem node?_remove {fs : FileSystem} {p q : Place} (hp : p ≠ []) :
    (fs.remove p).node? q = if p <+: q then none else fs.node? q := by
  split
  · next hq =>
    obtain ⟨r, rfl⟩ := hq
    simp [node?, remove, Contents.node?, Contents.at?_set_none hp]
  · next hq => exact Contents.node?_set_of_not_prefix hq

end FileSystem

end RealmBoot
