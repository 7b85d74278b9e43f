/-!
# Patterns

A pattern describes texts: characters, sets of characters, and places such as the end of a line or
the edge of a word are put together by sequence, choice and repetition. Groups may have a name, and
flags change how what follows is taken, up to the end of the group.

Only what decides whether a pattern can be used is kept of it. Which characters a set has, how often
something is repeated and what the name of a place is do not matter for that.

* `Pattern.depth`, `CharSet.depth`: how deep the parts of a pattern are nested.
* `Pattern.names`: the names of its groups.
-/

namespace RealmBoot

/-- What a flag says about the part of a pattern it holds for. -/
inductive PatternFlag where
  /-- Letters stand for themselves in either case. -/
  | caseless
  /-- The ends of a line count as ends of the text. -/
  | multiline
  /-- Any character may be a line feed too. -/
  | dotAll
  /-- Repetitions take as little as they can. -/
  | reluctant
  /-- The pattern is about characters, not about bytes. -/
  | unicode
  /-- A line may end in a carriage return and a line feed. -/
  | carriageReturns
  /-- Blanks and comments in the pattern do not count. -/
  | verbose
deriving DecidableEq, Repr

/-- Flags that are turned on or off. -/
abbrev FlagChange := List (PatternFlag × Bool)

/-- The state of a flag after a change. -/
def FlagChange.stateAfter (change : FlagChange) (flag : PatternFlag) (before : Bool) : Bool :=
  (change.lookup flag).getD before

/-- A part of a pattern that has no parts. -/
inductive PatternAtom where
  /-- One character. -/
  | char (c : Char)
  /-- One character given by two hexadecimal digits: a byte, if the pattern is about bytes. -/
  | byte (c : Char)
  /-- Any character. -/
  | any
  /-- A digit, a blank or a character of a word; or, negated, any other. -/
  | shorthand (negated : Bool)
  /-- A character with a Unicode property, or without it. -/
  | property
  /-- An end of a line or of the text. -/
  | anchor
  /-- An edge of a word, or a place that is none. -/
  | wordEdge
deriving DecidableEq, Repr

/-- How two sets of characters are put together. -/
inductive SetOperation where
  | intersection
  | difference
  | symmetricDifference
deriving DecidableEq, Repr

/-- A set of characters. -/
inductive CharSet where
  /-- What one atom stands for. -/
  | atom (a : PatternAtom)
  /-- All characters from one atom to another. -/
  | range (low high : PatternAtom)
  /-- A set of ASCII characters with a name; or, negated, all others. -/
  | named (negated : Bool)
  /-- A set between brackets; or, negated, all others. -/
  | bracket (negated : Bool) (inner : CharSet)
  /-- What is in one of several sets. -/
  | union (sets : List CharSet)
  /-- Two sets put together. -/
  | combined (operation : SetOperation) (left right : CharSet)

/-- A pattern. -/
inductive Pattern where
  /-- A part that has no parts. -/
  | atom (a : PatternAtom)
  /-- A character of a set. -/
  | set (s : CharSet)
  /-- A change of flags up to the end of the group. -/
  | flags (change : FlagChange)
  /-- A pattern between parentheses, with the flags that change inside. -/
  | group (name? : Option String) (change : FlagChange) (body : Pattern)
  /-- A repeated pattern. -/
  | repeated (body : Pattern)
  /-- One pattern after another. -/
  | sequence (parts : List Pattern)
  /-- One of several patterns. -/
  | choice (branches : List Pattern)
deriving Inhabited

namespace CharSet

/-- Several sets as one. -/
def unionOf : List CharSet → CharSet
  | [s] => s
  | sets => .union sets

mutual

/-- The number of brackets, unions and operations around what lies deepest in a set. -/
def depth : CharSet → Nat
  | .atom _ | .range .. | .named _ | .union [] => 0
  | .bracket _ inner => inner.depth + 1
  | .union (s :: sets) => max s.depth (depthOfAll sets) + 1
  | .combined _ left right => max left.depth right.depth + 1

/-- The greatest depth among sets. -/
def depthOfAll : List CharSet → Nat
  | [] => 0
  | s :: sets => max s.depth (depthOfAll sets)

end

end CharSet

namespace Pattern

/-- Parts one after another. -/
def sequenceOf : List Pattern → Pattern
  | [p] => p
  | parts => .sequence parts

/-- One of several branches. -/
def choiceOf : List Pattern → Pattern
  | [p] => p
  | branches => .choice branches

mutual

/-- The number of parts that have parts around what lies deepest in a pattern. -/
def depth : Pattern → Nat
  | .atom _ | .flags _ | .sequence [] | .choice [] => 0
  | .set s => s.depth
  | .group _ _ body | .repeated body => body.depth + 1
  | .sequence (p :: ps) | .choice (p :: ps) => max p.depth (depthOfAll ps) + 1

/-- The greatest depth among patterns. -/
def depthOfAll : List Pattern → Nat
  | [] => 0
  | p :: ps => max p.depth (depthOfAll ps)

end

mutual

/-- The names of the groups of a pattern. -/
def names : Pattern → List String
  | .atom _ | .set _ | .flags _ => []
  | .group name? _ body => name?.toList ++ body.names
  | .repeated body => body.names
  | .sequence ps | .choice ps => namesOfAll ps

/-- The names of the groups of several patterns. -/
def namesOfAll : List Pattern → List String
  | [] => []
  | p :: ps => p.names ++ namesOfAll ps

end

end Pattern

end RealmBoot
