import RealmBoot.Files.Fault
import RealmBoot.Files.FileSystem

/-!
# Following Paths

A path is followed name by name from the root or the working directory. Links on the way are
followed too, at most forty of them; whether a link at the very end is followed is up to the
operation. A slash at the end of a path asks for a directory, as one more `.` would; a path that a
file is to be written under must not end in one, nor the text of a link at its end.

The walk along a path stops at a link and goes on from where the link leads, so it is written as
two functions: `advance` goes as far as it can without following a link, and `follow` counts links.
-/

namespace RealmBoot

namespace FileSystem

/-- The number of bytes a name may have. -/
def nameLimit : Nat := 255

/-- The number of bytes a whole path may have. -/
def pathLimit : Nat := 4095

/-- The number of links that may be followed on one path. -/
def linkLimit : Nat := 40

/-- Where a path leads. -/
inductive Lead where
  /-- To a node. -/
  | arrived (p : Place)
  /-- To a free name in an existing directory. -/
  | vacant (p : Place)
  /-- To the working directory after it was removed. It holds nothing and takes nothing in. -/
  | adrift
deriving DecidableEq, Repr

/-- What a link at the end of a path is for an operation. -/
inductive AtEnd where
  /-- What the operation is about. -/
  | kept
  /-- A way on to what the operation is about. -/
  | followed
  /-- A way on to a file that is to be written. -/
  | filled
deriving DecidableEq, Repr

/-- How far a path leads before a link has to be followed. -/
inductive Stretch where
  /-- To its end. -/
  | done (lead : Lead)
  /-- Nowhere. -/
  | failed (fault : Fault)
  /-- To a link that stands in the directory `base`; `rest` is still to go. -/
  | crossing (base : Place) (target : Path) (rest : List String)
deriving DecidableEq, Repr

/-- Goes on from a directory along the given segments up to the end or to the next link that has to
be followed. The directory is given by the names that lead to it, innermost first, and by what it
holds. -/
def advance (fs : FileSystem) (last : AtEnd) (trail : List String) (cs : Contents) :
    List String → Stretch
  | [] => .done (.arrived trail.reverse)
  | s :: rest =>
    if s = "." then advance fs last trail cs rest
    else if s = ".." then advance fs last trail.tail (fs.contents trail.tail.reverse) rest
    else if s.utf8ByteSize > nameLimit then .failed .nameTooLong
    else match cs.lookup s with
      | none => if rest.isEmpty then .done (.vacant (s :: trail).reverse) else .failed .notFound
      | some (.link target) =>
        if rest.isEmpty && last = .kept then .done (.arrived (s :: trail).reverse)
        else .crossing trail.reverse target rest
      | some (.directory sub) => advance fs last (s :: trail) sub rest
      | some (.file ..) =>
        if rest.isEmpty then .done (.arrived (s :: trail).reverse) else .failed .notDirectory

/-- The segments a path is followed by; a slash at the end counts as a `.`. -/
def steps (p : Path) : List String := if p.endsInSlash then p.segments ++ ["."] else p.segments

/-- The segments that lead to the directory a path's last segment is looked up in. -/
def stepsAbove (p : Path) : List String := p.segments.dropLast ++ ["."]

/-- Where a path starts when it is met in the directory `base`. -/
def start (base : Place) (p : Path) : Place := if p.isAbsolute then [] else base

/-- Goes on from the directory `here` along the given segments, following at most `links` links.
From a directory that is gone no path leads anywhere. -/
def follow (fs : FileSystem) (last : AtEnd) : (links : Nat) → Place → List String →
    Except Fault Lead
  | links, here, todo =>
    if !fs.isDirectoryAt here then .error .notFound
    else match fs.advance last here.reverse (fs.contents here) todo with
      | .done lead => .ok lead
      | .failed fault => .error fault
      | .crossing base target rest =>
        match links with
        | 0 => .error .tooManyLinks
        | links + 1 =>
          if last = .filled && rest.isEmpty && target.endsInSlash then
            match follow fs .followed links (start base target) (stepsAbove target) with
            | .ok _ => .error .isDirectory
            | .error fault => .error fault
          else follow fs last links (start base target) (steps target ++ rest)

/-- Goes from where a path starts along the given segments. -/
def pursue (fs : FileSystem) (last : AtEnd) (p : Path) (todo : List String) : Except Fault Lead :=
  if !fs.isAdrift p then fs.follow last linkLimit (start fs.workLocation.names p) todo
  else if todo.all (· = ".") then .ok .adrift
  else .error .notFound

/-- The checks a path has to pass before it is followed at all. -/
def checkPath (p : Path) : Except Fault Unit :=
  if '\x00' ∈ p.text.toList then .error .nullInName
  else if p.text = "" then .error .notFound
  else if p.text.utf8ByteSize > pathLimit then .error .nameTooLong
  else .ok ()

/-- Where a path leads. -/
def lead (fs : FileSystem) (last : AtEnd) (p : Path) : Except Fault Lead := do
  checkPath p
  fs.pursue last p (steps p)

/-- The place of the node that a path denotes, links followed. -/
def place (fs : FileSystem) (p : Path) : Except Fault Place := do
  match ← fs.lead .followed p with
  | .arrived q => pure q
  | .vacant _ | .adrift => throw .notFound

/-- The absolute form of a path, links not looked at. -/
def absolute (fs : FileSystem) (p : Path) : Except Fault Path :=
  if fs.isAdrift p then .error .notFound
  else match Path.absolute? fs.workLocation.path p with
    | some q => .ok q
    | none => .error .emptyPath

end FileSystem

end RealmBoot
