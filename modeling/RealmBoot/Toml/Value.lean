/-!
# TOML Values

The values a TOML document is made of. Numbers with a fraction and dates are kept as written, as
nothing is computed with them. Arrays and tables remember how they were written, because that
decides whether a document may add to them later.
-/

namespace RealmBoot

namespace Toml

/-- How an array came about. -/
inductive ArrayOrigin where
  /-- It was written between brackets; nothing may be added. -/
  | inline
  /-- It is the list of the tables with one `[[header]]`. -/
  | headers
deriving DecidableEq, Repr

/-- How a table came about. -/
inductive TableOrigin where
  /-- It has a header of its own, or is the whole document. -/
  | header
  /-- It was only passed on the way to the table of some header. -/
  | passed
  /-- It was made by a dotted key. -/
  | dotted
  /-- It was written between braces; nothing may be added. -/
  | inline
deriving DecidableEq, Repr

/-- A value. -/
inductive Value where
  /-- A text. -/
  | string (text : String)
  /-- A whole number. -/
  | integer (n : Int)
  /-- A number with a fraction or an exponent, infinity, or no number, as written. -/
  | float (written : String)
  /-- A truth value. -/
  | boolean (b : Bool)
  /-- A date, a time, or both, as written. -/
  | datetime (written : String)
  /-- A list of values. -/
  | array (origin : ArrayOrigin) (items : List Value)
  /-- Values under keys. -/
  | table (origin : TableOrigin) (entries : List (String × Value))
deriving Repr, Inhabited

/-- Values under keys, no key twice. -/
abbrev Entries := List (String × Value)

/-- The value under a key. -/
def Entries.get? (es : Entries) (key : String) : Option Value := es.lookup key

/-- Puts a value under a key, in the stead of an earlier one. -/
def Entries.set (es : Entries) (key : String) (v : Value) : Entries :=
  es.filter (·.1 ≠ key) ++ [(key, v)]

end Toml

end RealmBoot
