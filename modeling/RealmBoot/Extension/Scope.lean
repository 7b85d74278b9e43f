import RealmBoot.Archive.Scanner
import RealmBoot.Index

/-!
# Search Scopes

The archives among which dependencies are looked up by short name. Manifests are read when the
first lookup is made; from the first lookup that succeeds in reading them all, the scope is frozen
and answers from what it read then.
-/

namespace RealmBoot

/-- Short names with the archives that have them. -/
abbrev ShortNameIndex := Index Location

/-- A set of archives to look dependencies up in. -/
structure Scope where
  /-- The directories it was scanned from. -/
  roots : List Path := []
  /-- The archives. -/
  archives : OrderedSet Location := ∅
  /-- The short names, once they have been read. -/
  index? : Option ShortNameIndex := none
deriving Inhabited

namespace Scope

/-- The scope of the given archives. -/
def ofArchives (archives : List Location) : Scope := { archives := .ofList archives }

/-- The union of what several directories hold. -/
def scanRoots (scanner : Scanner) (fs : FileSystem) :
    List Path → Except DiscoveryError (OrderedSet Location)
  | [] => .ok ∅
  | root :: roots =>
    match scanner.scanAll fs root with
    | .error e => .error e
    | .ok found => (scanRoots scanner fs roots).map found.union

/-- The scope of the archives below the given directories. -/
def scan (scanner : Scanner) (fs : FileSystem) (roots : List Path) : Except DiscoveryError Scope :=
  (scanRoots scanner fs roots).map fun archives => { roots, archives }

/-- Enters the short names of archives into an index, in order. -/
def readInto (fs : FileSystem) (index : ShortNameIndex) :
    List Location → Except DiscoveryError ShortNameIndex
  | [] => .ok index
  | archive :: rest =>
    match Manifest.ofArchive fs archive with
    | .error e => .error e
    | .ok m => readInto fs (index.enterEach archive m.shortName?.toList) rest

/-- Reads the short names of archives. Of several archives with one short name, the index has the
first. -/
def readIndex (fs : FileSystem) (archives : List Location) : Except DiscoveryError ShortNameIndex :=
  readInto fs ∅ archives

/-- The archive that an index has under a short name. -/
def lookup (index : ShortNameIndex) (name : String) : Option Location := index.get? name

/-- Looks a short name up, and gives the scope after the lookup. -/
def find (s : Scope) (fs : FileSystem) (name : String) :
    Except DiscoveryError (Option Location) × Scope :=
  match s.index? with
  | some index => (.ok (lookup index name), s)
  | none =>
    match readIndex fs s.archives.toList with
    | .error e => (.error e, s)
    | .ok index => (.ok (lookup index name), { s with index? := some index })

/-- How a scope is shown. -/
def text (s : Scope) : String :=
  "search scope [" ++ Text.joined ", " (s.roots.map (·.text)) ++ "] with archives [" ++
    Text.joined ", " (s.archives.toList.map (·.fileName)) ++ "]"

instance : ToString Scope := ⟨text⟩

end Scope

end RealmBoot
