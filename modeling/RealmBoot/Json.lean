import RealmBoot.Text.Pieces

/-!
# JSON

Results are shown as JSON: every item and every entry on a line of its own, two spaces deeper than
what holds it. Entries stay in the order given.
-/

namespace RealmBoot

/-- A JSON value, as far as results need it. -/
inductive Json where
  /-- Nothing. -/
  | null
  /-- A truth value. -/
  | bool (b : Bool)
  /-- A text. -/
  | text (s : String)
  /-- A list of values. -/
  | list (items : List Json)
  /-- Values under names. -/
  | object (entries : List (String × Json))
deriving Inhabited

namespace Json

/-- A character of a text between double quotes. -/
def escaped (c : Char) : List Char :=
  if c = '"' || c = '\\' then ['\\', c]
  else if c = '\n' then ['\\', 'n']
  else if c = '\r' then ['\\', 'r']
  else if c = '\t' then ['\\', 't']
  else if c = '\x08' then ['\\', 'b']
  else if c = '\x0c' then ['\\', 'f']
  else if c < ' ' then
    let digits := Nat.toDigits 16 c.toNat
    ['\\', 'u'] ++ List.replicate (4 - digits.length) '0' ++ digits
  else [c]

/-- A text between double quotes. -/
def quoted (s : String) : String := String.ofList ('"' :: s.toList.flatMap escaped ++ ['"'])

/-- A line end and the spaces of a nesting depth. -/
def newline (depth : Nat) : String := "\n" ++ Text.repeated "  " depth

mutual

/-- A value that is nested at a depth. -/
def pretty (depth : Nat) : Json → String
  | .null => "null"
  | .bool b => if b then "true" else "false"
  | .text s => quoted s
  | .list [] => "[]"
  | .list (v :: vs) => "[" ++ prettyItems (depth + 1) (v :: vs) ++ newline depth ++ "]"
  | .object [] => "\x7b\x7d"
  | .object (e :: es) => "\x7b" ++ prettyEntries (depth + 1) (e :: es) ++ newline depth ++ "\x7d"

/-- The items of a list, each on a line of its own. -/
def prettyItems (depth : Nat) : List Json → String
  | [] => ""
  | [v] => newline depth ++ pretty depth v
  | v :: w :: vs => newline depth ++ pretty depth v ++ "," ++ prettyItems depth (w :: vs)

/-- The entries of an object, each on a line of its own. -/
def prettyEntries (depth : Nat) : List (String × Json) → String
  | [] => ""
  | [(name, v)] => newline depth ++ quoted name ++ ": " ++ pretty depth v
  | (name, v) :: e :: es =>
    newline depth ++ quoted name ++ ": " ++ pretty depth v ++ "," ++ prettyEntries depth (e :: es)

end

/-- A value as it is shown. -/
def shown (v : Json) : String := pretty 0 v

/-- A list of texts. -/
def texts (ss : List String) : Json := .list (ss.map .text)

/-- A text that may be missing. -/
def ofOption : Option String → Json
  | none => .null
  | some s => .text s

end Json

end RealmBoot
