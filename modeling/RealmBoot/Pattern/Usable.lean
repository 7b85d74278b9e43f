import RealmBoot.Pattern.Reader

/-!
# Usable Patterns

Not every pattern can be matched. Texts are characters, so a pattern about bytes must not stand for
a byte beyond ASCII, and it knows no Unicode properties. The edges of words are only known where the
pattern is about bytes. The parts of a pattern must not be nested too deep, and no two of its groups
may have one name.

* `CharSet.reaches?`: whether a set of bytes has bytes beyond ASCII.
* `Pattern.modeAfter?`: the flags that hold after a pattern, if it can be matched.
* `Pattern.isUsable`: whether a text is a pattern that can be matched.
-/

namespace RealmBoot

/-- The flags that decide what a pattern may have. -/
structure PatternMode where
  /-- The pattern is about characters, not about bytes. -/
  unicode : Bool := true
  /-- Letters stand for themselves in either case. -/
  caseless : Bool := false
deriving DecidableEq, Repr

/-- The mode after a change of flags. -/
def PatternMode.change (m : PatternMode) (change : FlagChange) : PatternMode :=
  { unicode := change.stateAfter .unicode m.unicode
    caseless := change.stateAfter .caseless m.caseless }

/-- Whether a character is an ASCII character. -/
def isAscii (c : Char) : Bool := c.toNat < 0x80

/-- Whether an atom may stand outside of brackets. Beyond ASCII, a character has no other case in a
pattern about bytes. -/
def PatternAtom.isAllowed (m : PatternMode) : PatternAtom → Bool
  | .char c => m.unicode || !m.caseless || isAscii c
  | .byte c => m.unicode || isAscii c
  | .any | .property => m.unicode
  | .shorthand negated => m.unicode || !negated
  | .anchor => true
  | .wordEdge => !m.unicode

/-- Whether an atom between the brackets of a pattern about bytes is a set of ASCII characters. -/
def PatternAtom.isAsciiSet : PatternAtom → Bool
  | .char c | .byte c => isAscii c
  | .shorthand negated => !negated
  | .any | .property | .anchor | .wordEdge => false

/-- Whether two sets of bytes that are put together have the bytes beyond ASCII, of which each has
all or none. -/
def SetOperation.reaches : SetOperation → (left right : Bool) → Bool
  | .intersection, left, right => left && right
  | .difference, left, right => left && !right
  | .symmetricDifference, left, right => left != right

namespace CharSet

mutual

/-- Whether a set of bytes has the bytes beyond ASCII, if it may stand in a pattern about bytes.
What stands between brackets must not have them in the end. -/
def reaches? : CharSet → Option Bool
  | .atom a => if a.isAsciiSet then some false else none
  | .range low high => if low.isAsciiSet && high.isAsciiSet then some false else none
  | .named negated => some negated
  | .bracket negated inner => do if (← inner.reaches?) != negated then none else some false
  | .union sets => reachesAny? sets
  | .combined operation left right => do
    let l ← left.reaches?
    let r ← right.reaches?
    some (operation.reaches l r)

/-- Whether one of several sets of bytes has the bytes beyond ASCII. -/
def reachesAny? : List CharSet → Option Bool
  | [] => some false
  | s :: sets => do
    let first ← s.reaches?
    let others ← reachesAny? sets
    some (first || others)

end

end CharSet

namespace Pattern

mutual

/-- The mode after a pattern that is met in a mode, if it can be matched. Flags that change inside a
group change back at its end. -/
def modeAfter? (m : PatternMode) : Pattern → Option PatternMode
  | .atom a => if a.isAllowed m then some m else none
  | .set s => if m.unicode || s.reaches? = some false then some m else none
  | .flags change => some (m.change change)
  | .group _ change body => do
    let _ ← modeAfter? (m.change change) body
    some m
  | .repeated body => modeAfter? m body
  | .sequence ps | .choice ps => modeAfterAll? m ps

/-- The mode after several patterns, each met in the mode after the one before. -/
def modeAfterAll? (m : PatternMode) : List Pattern → Option PatternMode
  | [] => some m
  | p :: ps => do
    let after ← modeAfter? m p
    modeAfterAll? after ps

end

/-- The depth a pattern may have. -/
def depthLimit : Nat := 250

/-- Whether a text is a pattern that can be matched. -/
def isUsable (cs : List Char) : Bool :=
  match ofChars? cs with
  | some p => p.depth ≤ depthLimit && decide p.names.Nodup && (p.modeAfter? {}).isSome
  | none => false

end Pattern

end RealmBoot
