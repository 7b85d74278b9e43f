import RealmBoot.Pattern.Usable
import RealmBoot.Text.Bytes
import RealmBoot.Text.Pieces

/-!
# Log Filters

A log filter is a list of directives separated by commas. A directive is a level, or a target with
a level after an equals sign, or a target with a span between brackets and fields of the span
between braces; target and level may be missing there. A field may have a value after an equals
sign: a number or a pattern. This module only tells whether a text is a filter, as records that pass
a filter are no part of the program's output.
-/

namespace RealmBoot

namespace LogFilter

/-- The names of the levels. -/
def levels : List String := ["error", "warn", "info", "debug", "trace", "off"]

/-- Whether a text denotes a level: by its name in any case, by a number up to five, or by
nothing. -/
def isLevel (cs : List Char) : Bool :=
  cs.isEmpty ||
  levels.contains (String.ofList (cs.map Char.toLower)) ||
  let digits := if cs.head? = some '+' then cs.drop 1 else cs
  match digits.reverse with
  | last :: zeros => '0' ≤ last && last ≤ '5' && zeros.all (· = '0')
  | [] => false

/-- The names of numbers that have no digits. -/
def numberNames : List String := ["inf", "infinity", "nan"]

/-- Drops a sign if there is one. -/
def dropSign (cs : List Char) : List Char :=
  if cs.head? = some '+' || cs.head? = some '-' then cs.drop 1 else cs

/-- Whether a text is nothing, or the exponent of a number. -/
def isExponent : List Char → Bool
  | [] => true
  | c :: rest =>
    let digits := dropSign rest
    (c = 'e' || c = 'E') && !digits.isEmpty && digits.all Char.isDigit

/-- Whether a text is a number in decimal digits or by name. -/
def isNumber (cs : List Char) : Bool :=
  let cs := dropSign cs
  let whole := cs.takeWhile Char.isDigit
  let rest := cs.dropWhile Char.isDigit
  let afterPoint := if rest.head? = some '.' then rest.drop 1 else []
  let fraction := afterPoint.takeWhile Char.isDigit
  let tail := if rest.head? = some '.' then afterPoint.dropWhile Char.isDigit else rest
  numberNames.contains (String.ofList (cs.map Char.toLower)) ||
  !(whole.isEmpty && fraction.isEmpty) && isExponent tail

/-- Whether a text that is not empty is a field. The value stands between the first equals sign and
the second one, if there is one; the rest does not matter. -/
def isField (cs : List Char) : Bool :=
  match Text.pieces '=' cs with
  | _ :: value :: _ => isNumber value || Pattern.isUsable value
  | _ => true

/-- Where in a directive a reader is. -/
inductive Place where
  /-- At its start. -/
  | start
  /-- In the level or the target. -/
  | name
  /-- In the name of a span. -/
  | span
  /-- In a field that starts at the given byte. -/
  | field (start : Nat)
  /-- After the fields. -/
  | fields
  /-- After the span. -/
  | target
deriving DecidableEq

/-- Whether a directive may start with a character. -/
def startsName (c : Char) : Bool := c = '-' || c = ':' || c = '_' || Text.isAlphanumeric c

/-- Whether the rest of a directive, from the byte with the given number, is in order. `isTail`
decides on what follows an equals sign, and `holdsField` on the field between two bytes. -/
def directiveFrom (isTail : List Char → Bool) (holdsField : (start stop : Nat) → Bool) :
    Place → Nat → List Char → Bool
  | place, _, [] => place = .name || place = .target
  | place, n, c :: cs =>
    let go (next : Place) := directiveFrom isTail holdsField next (n + c.utf8Size) cs
    match place with
    | .start => if c = '[' then go .span else startsName c && go .name
    | .name => if c = '=' then isTail cs else if c = '[' then go .span else go .name
    | .span =>
      if c = ']' then go .target
      else if c = '\x7b' then go (.field (n + c.utf8Size))
      else go .span
    | .field start =>
      if c = '\x7d' then start < n && holdsField start n && go .fields else go (.field start)
    | .fields => c = ']' && go .target
    | .target => c = '=' && isTail cs

/-- Whether a text is a directive. Blanks around it do not matter, unless something follows an
equals sign or stands between braces: what follows the sign is a level as it stands, and blanks
before the directive move the place where a level or a field is looked up by as many bytes towards
the start. -/
def isDirective (cs : List Char) : Bool :=
  let inner := Text.trimStart cs
  let blanksAfter := inner.drop (Text.trimEnd inner).length
  let aligned := inner.length = cs.length
  directiveFrom (fun tail => aligned && isLevel (tail ++ blanksAfter))
    (fun start stop => (Text.between? cs start stop).any isField) .start 0 (Text.trimEnd inner)

/-- Whether a text is a filter. Empty directives do not count. -/
def isFilter (s : String) : Bool :=
  ((Text.pieces ',' s.toList).filter (!·.isEmpty)).all isDirective

end LogFilter

end RealmBoot
