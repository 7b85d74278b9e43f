import RealmBoot.Text.AsciiCase
import RealmBoot.Text.Blank
import RealmBoot.Text.Pieces

/-!
# Manifests

An archive starts with a main section of attributes, one `Name: value` to a line. A line that starts
with a space continues the value before it, and the first empty line ends the section. Looking an
attribute up disregards the case of ASCII letters, and the last of several lines with one name
counts.
-/

namespace RealmBoot

/-- Why a text is not a manifest. -/
inductive ManifestError where
  /-- The bytes are not text. -/
  | notText
  /-- A line continues a value, but no attribute comes before it. -/
  | danglingContinuation (line : Nat)
  /-- A line does not have the form of an attribute. -/
  | malformedLine (line : Nat)
deriving DecidableEq, Repr

/-- The text of a manifest error. -/
def ManifestError.message : ManifestError → String
  | notText => "manifest is not valid UTF-8"
  | danglingContinuation n =>
    "line " ++ toString n ++ ": continuation line without a preceding attribute"
  | malformedLine n => "line " ++ toString n ++ ": expected `Name: value`"

/-- The main section of a manifest: its attributes in the order of their first lines. -/
structure Manifest where
  /-- Names and values. -/
  attributes : List (String × String)
deriving DecidableEq, Repr, Inhabited

namespace Manifest

/-- What one line of a section says. -/
inductive Line where
  /-- It ends the section. -/
  | stop
  /-- It continues the value before it. -/
  | more (text : List Char)
  /-- It starts an attribute. -/
  | attribute (name value : List Char)
  /-- It has no meaning. -/
  | malformed
deriving DecidableEq, Repr

/-- Drops one leading space. -/
def dropSpace : List Char → List Char
  | ' ' :: cs => cs
  | cs => cs

/-- Reads one line. The name of an attribute is trimmed and must then be free of blanks. -/
def Line.ofChars : List Char → Line
  | [] => .stop
  | ' ' :: rest => .more rest
  | cs =>
    match Text.cut ':' cs with
    | none => .malformed
    | some (before, after) =>
      let name := Text.trimChars before
      if name.isEmpty || name.any Text.isBlank then .malformed
      else .attribute name (dropSpace after)

/-- Lengthens the last value of a list of attributes, if there is one. -/
def extendLast (rest : List Char) :
    List (List Char × List Char) → Option (List (List Char × List Char))
  | [] => none
  | [(name, value)] => some [(name, value ++ rest)]
  | a :: b :: as => (extendLast rest (b :: as)).map (a :: ·)

/-- Reads the lines of a section, the first of them having the number `n`, after the attributes
`sofar`. -/
def readLines (n : Nat) (sofar : List (List Char × List Char)) :
    List (List Char) → Except ManifestError (List (List Char × List Char))
  | [] => .ok sofar
  | line :: rest =>
    match Line.ofChars line with
    | .stop => .ok sofar
    | .more text =>
      match extendLast text sofar with
      | none => .error (.danglingContinuation n)
      | some sofar => readLines (n + 1) sofar rest
    | .attribute name value => readLines (n + 1) (sofar ++ [(name, value)]) rest
    | .malformed => .error (.malformedLine n)

/-- Drops a byte order mark. -/
def dropMark : List Char → List Char
  | '\ufeff' :: cs => cs
  | cs => cs

/-- Reads the main section of a manifest. -/
def parse (text : String) : Except ManifestError Manifest := do
  let attributes ← readLines 1 [] (Text.lines (dropMark text.toList))
  pure ⟨attributes.map fun (name, value) => (String.ofList name, String.ofList value)⟩

/-- Reads the main section of a manifest from the bytes of an archive. -/
def parseBytes (bytes : ByteArray) : Except ManifestError Manifest :=
  match String.fromUTF8? bytes with
  | some text => parse text
  | none => .error .notText

/-- The value of an attribute. -/
def get? (m : Manifest) (name : String) : Option String :=
  (m.attributes.reverse.find? fun a => Text.sameLetters a.1 name).map (·.2)

/-- The short name of an extension module, if it has one. -/
def shortName? (m : Manifest) : Option String :=
  ((m.get? "Short-Name").map Text.trim).filter (· ≠ "")

/-- The version of an extension module, if it has one. -/
def version? (m : Manifest) : Option String := (m.get? "Plugin-Version").map Text.trim

/-- The dependencies of an extension module, as declared. -/
def dependencies? (m : Manifest) : Option String := m.get? "Plugin-Dependencies"

/-- The qualified names of the types an archive defines. -/
def exportedTypes (m : Manifest) : List String :=
  match m.get? "Export-Types" with
  | none => []
  | some list => ((Text.piecesOf ',' list).map Text.trim).filter (· ≠ "")

end Manifest

end RealmBoot
