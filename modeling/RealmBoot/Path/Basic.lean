import RealmBoot.Text.Pieces
import RealmBoot.Text.Quoted

/-!
# Paths

A path is kept as the text it was given or joined as, since that text is what messages and reports
show. What it denotes depends on its *segments* only, the texts between its slashes, and two paths
count as the same when their *components* agree: repeated slashes, a slash at the end, and `.`
anywhere but at the very start of a relative path do not matter.
-/

namespace RealmBoot

/-- A path, as written. -/
structure Path where
  /-- The text of the path. -/
  text : String
deriving DecidableEq, Inhabited, Repr

/-- One step of a path. -/
inductive Component where
  /-- The root directory: the path is absolute. -/
  | root
  /-- A `.` at the start of a relative path. -/
  | here
  /-- A `..`. -/
  | up
  /-- An ordinary name. -/
  | name (text : String)
deriving DecidableEq, Repr

namespace Component

/-- How a component is written. -/
def text : Component → String
  | root => "/"
  | here => "."
  | up => ".."
  | name s => s

/-- The component a segment other than a leading `.` stands for. -/
def ofSegment? (s : String) : Option Component :=
  if s = "." then none else if s = ".." then some up else some (name s)

end Component

namespace Path

/-- The texts between the slashes, leaving out the empty ones. -/
def segments (p : Path) : List String :=
  (Text.piecesOf '/' p.text).filter (· ≠ "")

/-- Whether the path starts at the root. -/
def isAbsolute (p : Path) : Bool := p.text.toList.head? == some '/'

/-- Whether the path ends with a slash, and so asks for a directory. -/
def endsInSlash (p : Path) : Bool := p.text.toList.getLast? == some '/'

/-- The components of a path. -/
def components (p : Path) : List Component :=
  if p.isAbsolute then .root :: p.segments.filterMap Component.ofSegment?
  else match p.segments with
    | "." :: rest => .here :: rest.filterMap Component.ofSegment?
    | segments => segments.filterMap Component.ofSegment?

/-- Whether two paths have the same components. -/
def same (p q : Path) : Bool := p.components == q.components

/-- Whether a list holds a path with the same components. -/
def among (p : Path) (ps : List Path) : Bool := ps.any p.same

/-- The path `q` as seen from `p`: an absolute `q` stands for itself. -/
def join (p q : Path) : Path :=
  if q.isAbsolute then q
  else if p.text = "" || p.endsInSlash then ⟨p.text ++ q.text⟩
  else ⟨p.text ++ "/" ++ q.text⟩

/-- The path `p` followed by one name. -/
def child (p : Path) (name : String) : Path := p.join ⟨name⟩

/-- Writes components as a path. -/
def ofComponents : List Component → Path
  | .root :: cs => ⟨"/" ++ Text.joined "/" (cs.map (·.text))⟩
  | cs => ⟨Text.joined "/" (cs.map (·.text))⟩

/-- The path without its last component; the root and the empty path have no parent. -/
def parent? (p : Path) : Option Path :=
  match p.components.getLast? with
  | none | some .root => none
  | some _ => some (ofComponents p.components.dropLast)

/-- The last component, if it is a name. -/
def fileName? (p : Path) : Option String :=
  match p.components.getLast? with
  | some (.name s) => some s
  | _ => none

/-- What follows the last dot of a file name, unless the name has no dot after its first
character. -/
def extension? (p : Path) : Option String := do
  let name ← p.fileName?
  let (after, before) ← Text.cut '.' name.toList.reverse
  if before.isEmpty then none else some (String.ofList after.reverse)

/-- What remains of `p` below `base`, if the components of `p` start with those of `base`. -/
def below? (p base : Path) : Option Path :=
  if base.components.isPrefixOf p.components then
    some (ofComponents (p.components.drop base.components.length))
  else none

/-- The path seen from the root, for a process working in `workDir`. No segment `..` is resolved,
a leading `.` is dropped, and a slash at the end or a pair of slashes at the start is kept. The
empty path has no absolute form. -/
def absolute? (workDir p : Path) : Option Path :=
  if p.text = "" then none
  else
    let steps := p.components.filter fun c => c ≠ .root && c ≠ .here
    let chars := p.text.toList
    let start : Path :=
      if !p.isAbsolute then workDir
      else if chars.take 2 == ['/', '/'] && chars[2]? != some '/' then ⟨"//"⟩
      else ⟨"/"⟩
    let full := steps.foldl (fun q c => q.join ⟨c.text⟩) start
    some (if p.endsInSlash then full.join ⟨""⟩ else full)

/-- The path as messages quote it. -/
def quoted (p : Path) : String := Text.quoted p.text

instance : ToString Path := ⟨Path.text⟩

end Path

end RealmBoot
