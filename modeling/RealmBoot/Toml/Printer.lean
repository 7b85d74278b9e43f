import RealmBoot.Toml.Document

/-!
# Writing TOML

Values as they stand after an equals sign, and documents as lists of tables with their headers.
-/

namespace RealmBoot

namespace Toml

/-- A character of a text between double quotes. -/
def writtenChar (c : Char) : List Char :=
  if c = '"' || c = '\\' then ['\\', c]
  else if isPlain c then [c]
  else
    let digits := Nat.toDigits 16 c.toNat
    ['\\', 'u'] ++ List.replicate (4 - digits.length) '0' ++ digits

/-- A text between double quotes. -/
def writtenText (s : String) : String :=
  String.ofList ('"' :: s.toList.flatMap writtenChar ++ ['"'])

mutual

/-- A value on one line. -/
def Value.written : Value → String
  | .string s => writtenText s
  | .integer n => toString n
  | .float w => w
  | .boolean b => if b then "true" else "false"
  | .datetime w => w
  | .array _ items => "[" ++ writtenItems items ++ "]"
  | .table _ entries => "\x7b" ++ writtenEntries entries ++ "\x7d"

/-- Items of an array, with a comma and a blank between one and the next. -/
def writtenItems : List Value → String
  | [] => ""
  | [v] => v.written
  | v :: w :: vs => v.written ++ ", " ++ writtenItems (w :: vs)

/-- Entries of a table on one line. -/
def writtenEntries : List (String × Value) → String
  | [] => ""
  | [(key, v)] => writtenText key ++ " = " ++ v.written
  | (key, v) :: e :: es => writtenText key ++ " = " ++ v.written ++ ", " ++ writtenEntries (e :: es)

end

/-- Entries of a table, one to a line. -/
def Entries.lines (es : Entries) : String :=
  String.join (es.map fun (key, v) => writtenText key ++ " = " ++ v.written ++ "\n")

/-- A document of tables, each with the keys of its header. -/
def document (tables : List (List String × Entries)) : String :=
  String.join (tables.map fun (keys, es) =>
    "[" ++ Text.joined "." (keys.map writtenText) ++ "]\n" ++ es.lines)

end Toml

end RealmBoot
