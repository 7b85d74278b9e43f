import RealmBoot.Archive.Discovery

/-!
# Scanners

A scanner knows archives by the extensions of their file names and looks for them below a
directory. The archives it meets are listed in the order of the walk up to the first error; a scan
is the set of all of them, or that error.
-/

namespace RealmBoot

/-- What archives are recognised by. -/
structure Scanner where
  /-- The extensions, without dots and in lower case. -/
  extensions : List String
deriving DecidableEq, Repr, Inhabited

namespace Scanner

/-- The form in which an extension is kept: trimmed, without leading dots, in lower case. -/
def normalExtension (e : String) : String :=
  String.ofList (((Text.trimChars e.toList).dropWhile (· = '.')).map Char.toLower)

/-- The scanner for the given extensions; those that come out empty are left out. -/
def ofExtensions (es : List String) : Scanner :=
  ⟨(es.map normalExtension).filter (· ≠ "")⟩

/-- The scanner for ordinary module archives. -/
def modules : Scanner := ofExtensions ["jar"]

/-- The scanner for extension modules. -/
def extensionModules : Scanner := ofExtensions ["jpi", "hpi", "jpl"]

/-- Whether a path has the name of an archive. -/
def isArchiveName (s : Scanner) (p : Path) : Bool :=
  match p.extension? with
  | none => false
  | some e => s.extensions.any fun known => Text.sameLetters known e

/-- What a scanner makes of a visit: an archive, an error, or nothing. -/
def item? (s : Scanner) (fs : FileSystem) : Visit → Option (Except DiscoveryError Location)
  | .entry path .file =>
    if s.isArchiveName path then some (Location.ofPath fs path) else none
  | .entry _ _ => none
  | .failed f => (DiscoveryError.ofWalkFault? f).map .error

/-- The items up to and including the first error. -/
def upToError {ε α : Type} : List (Except ε α) → List (Except ε α)
  | [] => []
  | .ok a :: rest => .ok a :: upToError rest
  | .error e :: _ => [.error e]

/-- The archives below a root in the order of the walk, up to the first error. -/
def walk (s : Scanner) (fs : FileSystem) (root : Path) : List (Except DiscoveryError Location) :=
  upToError ((Walk.visits fs root).filterMap (s.item? fs))

/-- The values of a list without errors, or the first error. -/
def collect {ε α : Type} : List (Except ε α) → Except ε (List α)
  | [] => .ok []
  | .ok a :: rest => (collect rest).map (a :: ·)
  | .error e :: _ => .error e

/-- The archives below a root that satisfy a condition. A missing root has none; a root that is an
archive itself is the only candidate. -/
def scan (s : Scanner) (fs : FileSystem) (root : Path) (accepts : Location → Bool) :
    Except DiscoveryError (OrderedSet Location) :=
  (collect (s.walk fs root)).map fun found => .ofList (found.filter accepts)

/-- All archives below a root. -/
def scanAll (s : Scanner) (fs : FileSystem) (root : Path) :
    Except DiscoveryError (OrderedSet Location) :=
  s.scan fs root fun _ => true

end Scanner

end RealmBoot
