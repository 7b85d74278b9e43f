import RealmBoot.Toml.Number
import RealmBoot.Toml.Value

/-!
# TOML Documents

A document is a list of lines, each giving a value under a dotted key or opening a table by its
header. The lines build up one table. No value is given twice, no table is opened twice, and
nothing is added to what was written between brackets or braces.

* `Toml.Entries.atPath`: how keys lead to the table at which a line works.
* `Toml.parse`: reads a document.
-/

namespace RealmBoot

namespace Toml

/-- Works on the entries of the last table of a list. -/
def onLast (f : TableOrigin → Entries → Option Entries) : List Value → Option (List Value)
  | [] => none
  | [.table origin es] => (f origin es).map fun es => [.table origin es]
  | v :: vs => (onLast f vs).map (v :: ·)

/-- Follows keys from a table and works on the entries of the table they lead to. Tables that are
missing are made; a list of tables is entered at its last one. With `dotted` the keys are those of
a dotted key, which may not enter a table that has a header of its own. -/
def Entries.atPath (dotted : Bool) (f : TableOrigin → Entries → Option Entries) :
    List String → TableOrigin → Entries → Option Entries
  | [], origin, es => f origin es
  | key :: keys, _, es =>
    match es.get? key with
    | none =>
      let origin := if dotted then .dotted else .passed
      (atPath dotted f keys origin []).map fun sub => es.set key (.table origin sub)
    | some (.table origin sub) =>
      if origin = .inline || (dotted && origin = .header) then none
      else (atPath dotted f keys origin sub).map fun sub => es.set key (.table origin sub)
    | some (.array .headers tables) =>
      (onLast (atPath dotted f keys) tables).map fun tables => es.set key (.array .headers tables)
    | some _ => none

/-- Gives a value under a dotted key. The table it goes into has to be the one at hand or one made
by dotted keys. -/
def Entries.give (path : List String) (v : Value) (origin : TableOrigin) (es : Entries) :
    Option Entries :=
  match path.getLast? with
  | none => none
  | some key =>
    let above := path.dropLast
    atPath true (fun origin es =>
      if (origin == .dotted) == above.isEmpty then none
      else match es.get? key with
        | some _ => none
        | none => some (es.set key v)) above origin es

/-- Opens the table with a header. -/
def Entries.openTable (path : List String) (es : Entries) : Option Entries :=
  match path.getLast? with
  | none => none
  | some key =>
    atPath false (fun _ es =>
      match es.get? key with
      | none => some (es.set key (.table .header []))
      | some (.table .passed sub) => some (es.set key (.table .header sub))
      | some _ => none) path.dropLast .header es

/-- Adds a table to the list with a header. -/
def Entries.openElement (path : List String) (es : Entries) : Option Entries :=
  match path.getLast? with
  | none => none
  | some key =>
    atPath false (fun _ es =>
      match es.get? key with
      | none => some (es.set key (.array .headers [.table .header []]))
      | some (.array .headers tables) =>
        some (es.set key (.array .headers (tables ++ [.table .header []])))
      | some _ => none) path.dropLast .header es

/-- Reads the items of an array up to the closing bracket. -/
def items (item : Reader Value) : (fuel : Nat) → Reader (List Value)
  | 0, _ => none
  | fuel + 1, cs =>
    match skipBlanks false cs with
    | ']' :: rest => some ([], rest)
    | cs => do
      let (v, rest) ← item cs
      match skipBlanks false rest with
      | ']' :: rest => some ([v], rest)
      | ',' :: rest =>
        let (vs, rest) ← items item fuel rest
        some (v :: vs, rest)
      | _ => none

/-- Reads a dotted key, an equals sign and a value. -/
def keyValue (value : Reader Value) : Reader (List String × Value) := fun cs => do
  let (path, rest) ← dottedKey cs
  let rest ← after? '=' rest
  let (v, rest) ← value (skipSpaces rest)
  some ((path, v), rest)

/-- Reads the pairs of a table between braces, up to the closing one, at least one pair. -/
def pairs (value : Reader Value) : (fuel : Nat) → Reader (List (List String × Value))
  | 0, _ => none
  | fuel + 1, cs => do
    let (p, rest) ← keyValue value cs
    match skipSpaces rest with
    | '\x7d' :: rest => some ([p], rest)
    | ',' :: rest =>
      let (ps, rest) ← pairs value fuel rest
      some (p :: ps, rest)
    | _ => none

/-- Reads a table between braces, the opening one having been read. -/
def inlineTable (value : Reader Value) : Reader Value := fun cs =>
  match skipSpaces cs with
  | '\x7d' :: rest => some (.table .inline [], rest)
  | cs => do
    let (ps, rest) ← pairs value cs.length cs
    let es ← ps.foldlM (fun es p => Entries.give p.1 p.2 .inline es) []
    some (.table .inline es, rest)

/-- Reads a value that is nested at most `depth` levels deep. -/
def value : (depth : Nat) → Reader Value
  | depth, cs =>
    match cs with
    | '"' :: _ => (text cs).map fun (s, rest) => (.string s, rest)
    | '\'' :: _ => (text cs).map fun (s, rest) => (.string s, rest)
    | '[' :: rest =>
      match depth with
      | 0 => none
      | depth + 1 =>
        (items (value depth) (rest.length + 1) rest).map fun (vs, rest) =>
          (.array .inline vs, rest)
    | '\x7b' :: rest =>
      match depth with
      | 0 => none
      | depth + 1 => inlineTable (value depth) rest
    | 't' :: 'r' :: 'u' :: 'e' :: rest => some (.boolean true, rest)
    | 'f' :: 'a' :: 'l' :: 's' :: 'e' :: rest => some (.boolean false, rest)
    | _ => number cs

/-- A line of a document. -/
inductive Line where
  /-- A value under a dotted key. -/
  | give (path : List String) (v : Value)
  /-- The header of a table. -/
  | header (path : List String)
  /-- The header of a table in a list of tables. -/
  | element (path : List String)

/-- Reads a line that is neither blank nor a comment only, up to its end. -/
def line : Reader Line
  | '[' :: '[' :: rest => do
    let (path, rest) ← dottedKey rest
    let rest ← after? ']' rest
    let rest ← after? ']' rest
    let rest ← afterLine? rest
    some (.element path, rest)
  | '[' :: rest => do
    let (path, rest) ← dottedKey rest
    let rest ← after? ']' rest
    let rest ← afterLine? rest
    some (.header path, rest)
  | cs => do
    let ((path, v), rest) ← keyValue (value depthLimit) cs
    let rest ← afterLine? rest
    some (.give path v, rest)

/-- Reads the lines of a document. -/
def lines : (fuel : Nat) → List Char → Option (List Line)
  | 0, _ => none
  | fuel + 1, cs =>
    match skipBlanks false cs with
    | [] => some []
    | cs => do
      let (l, rest) ← line cs
      (lines fuel rest).map (l :: ·)

/-- A document under construction: its table, and the header in whose table the next line works. -/
structure Draft where
  /-- The whole table. -/
  entries : Entries := []
  /-- The keys of the last header. -/
  current : List String := []

/-- Adds a line to a draft. -/
def Draft.add (d : Draft) : Line → Option Draft
  | .give path v =>
    (Entries.atPath false (Entries.give path v) d.current .header d.entries).map fun entries =>
      { d with entries }
  | .header path => (d.entries.openTable path).map fun entries => { entries, current := path }
  | .element path => (d.entries.openElement path).map fun entries => { entries, current := path }

/-- Drops a byte order mark. -/
def dropMark : List Char → List Char
  | '\ufeff' :: cs => cs
  | cs => cs

/-- Reads a document as a table. -/
def parse (text : String) : Option Entries := do
  let cs := dropMark text.toList
  let ls ← lines (cs.length + 1) cs
  let d ← ls.foldlM Draft.add {}
  some d.entries

end Toml

end RealmBoot
