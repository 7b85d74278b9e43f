import RealmBoot.Files.Access

/-!
# Walking a Directory Tree

A walk visits a path and, if it denotes a directory, everything below it, each directory's names in
increasing order and every directory before what it holds. Links are followed, under their own
names. A link that leads back to a directory which is still open on the way down is reported instead
of entered, so that every walk ends.

This stands for the directory walker `walkdir`, set to follow links and to sort by name. Of what is
documented of it, the following is fixed here:

* a root is met first, and at a root that is missing the walk ends with the fault;
* a directory is given out before what it holds, and that in the order of the names as bytes;
* the kind of an entry is that which its directory lists it under; only a link is looked at again;
* a link has the kind of what it denotes, and a link that denotes nothing is a fault at its path;
* a link to a directory is compared with the open directories by place, innermost first, and one of
  them is a fault that names both paths; nothing but links is compared;
* a directory is listed before it is given out, and one that cannot be listed is given out too and
  followed by the fault;
* the walk goes on after every fault.

The order of listing and giving out only counts where files are changed while the walk is under way,
as they are when hooks are copied (`RunHome.copyHooksFrom`).

What stands at a path and what a directory lists is asked for under the path's text, which grows
from level to level. As no path of more than `FileSystem.pathLimit` bytes can be listed, the depth
of a walk is bounded by that number, whatever the tree holds; `Walk.depthLimit` is that bound.
-/

namespace RealmBoot

/-- Why something met on a walk cannot be visited. -/
inductive WalkCause where
  /-- It cannot be looked at. -/
  | fault (fault : Fault)
  /-- It is a link to a directory that the walk is inside of. -/
  | loop (ancestor : Path)
deriving DecidableEq, Repr

/-- Something met on a walk that cannot be visited. -/
structure WalkFault where
  /-- Its path. -/
  path : Path
  /-- Why it cannot be visited. -/
  cause : WalkCause
deriving DecidableEq, Repr

/-- The text of a walk fault. -/
def WalkFault.message (f : WalkFault) : String :=
  match f.cause with
  | .fault e => "IO error for operation on " ++ f.path.text ++ ": " ++ e.message
  | .loop ancestor =>
    "File system loop found: " ++ f.path.text ++ " points to an ancestor " ++ ancestor.text

/-- What a walk meets. -/
inductive Visit where
  /-- A file or directory, under the path by which it was reached. -/
  | entry (path : Path) (kind : Kind)
  /-- Something that cannot be visited. -/
  | failed (fault : WalkFault)
deriving DecidableEq, Repr

namespace Walk

/-- The directories a walk is inside of, innermost first, each with its path and place. -/
abbrev Trail := List (Path × Place)

/-- A bound on the depth of every walk: each level adds at least one byte to the path. -/
def depthLimit : Nat := FileSystem.pathLimit + 2

/-- The kind of what a walk met: a link takes the kind of what it leads to, unless that cannot be
looked at or is a directory the walk is inside of. -/
def settle (fs : FileSystem) (trail : Trail) (path : Path) : Kind → Except WalkFault Kind
  | .link =>
    match fs.stat path with
    | .error e => .error ⟨path, .fault e⟩
    | .ok node =>
      if node.kind = .directory then
        match trail.find? fun d => (fs.place path).toOption == some d.2 with
        | some (ancestor, _) => .error ⟨path, .loop ancestor⟩
        | none => .ok .directory
      else .ok node.kind
  | kind => .ok kind

/-- The trail inside a directory. -/
def enter (fs : FileSystem) (trail : Trail) (path : Path) : Trail :=
  (path, (fs.place path).toOption.getD []) :: trail

/-- The visits of a walk from something of the given kind, found under `path` inside of `trail`. -/
def visitsFrom (fs : FileSystem) : (depth : Nat) → Trail → Path → Kind → List Visit
  | 0, _, _, _ => []
  | depth + 1, trail, path, kind =>
    match settle fs trail path kind with
    | .error f => [.failed f]
    | .ok .directory =>
      .entry path .directory ::
        match fs.list path with
        | .error e => [.failed ⟨path, .fault e⟩]
        | .ok names => names.flatMap fun (name, kind) =>
          visitsFrom fs depth (enter fs trail path) (path.child name) kind
    | .ok kind => [.entry path kind]

/-- The visits of a walk from a root. -/
def visits (fs : FileSystem) (root : Path) : List Visit :=
  match fs.linkStat root with
  | .error e => [.failed ⟨root, .fault e⟩]
  | .ok node => visitsFrom fs depthLimit [] root node.kind

end Walk

end RealmBoot
