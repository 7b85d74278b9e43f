import RealmBoot.Extension.Failure

/-!
# Dependencies

An extension archive declares what it needs as a list of `name:version` items separated by commas.
Further parts of an item follow semicolons; one of them marks the dependency as optional, the
others mean nothing.
-/

namespace RealmBoot

/-- A module another one needs. -/
structure Dependency where
  /-- Its short name. -/
  name : String
  /-- The version asked for. -/
  version : String
  /-- Whether the one that asks can do without it. -/
  optional : Bool
deriving DecidableEq, Repr, Inhabited

namespace Dependency

/-- The part of an item that marks it as optional. -/
def optionalMark : String := "resolution:=optional"

/-- How a dependency is shown. -/
def text (d : Dependency) : String :=
  d.name ++ ":" ++ d.version ++ if d.optional then " (optional)" else ""

instance : ToString Dependency := ⟨text⟩

/-- Reads an item: a name and a version around the first colon, neither of them blank, then the
parts after semicolons. -/
def ofChars? (item : List Char) : Option Dependency :=
  match Text.pieces ';' (Text.trimChars item) with
  | [] => none
  | head :: parts =>
    match Text.cut ':' head with
    | none => none
    | some (before, after) =>
      let name := Text.trimChars before
      let version := Text.trimChars after
      if name.isEmpty || version.isEmpty then none
      else some ⟨String.ofList name, String.ofList version,
        parts.any fun part => Text.trimChars part == optionalMark.toList⟩

/-- Reads an item declared by a module. -/
def parse (item declaredBy : String) : Except ResolutionError Dependency :=
  match ofChars? item.toList with
  | some d => .ok d
  | none => .error (.malformedDependency item declaredBy)

/-- Reads the items of a list one after another. -/
def parseItems (declaredBy : String) : List String → Except ResolutionError (List Dependency)
  | [] => .ok []
  | item :: items =>
    match parse item declaredBy with
    | .error e => .error e
    | .ok d => (parseItems declaredBy items).map (d :: ·)

/-- Reads a list of dependencies declared by a module; blank items are left out. -/
def parseList (list declaredBy : String) : Except ResolutionError (List Dependency) :=
  parseItems declaredBy ((Text.piecesOf ',' list).filter (!Text.isBlankText ·))

end Dependency

end RealmBoot
