import RealmBoot.Pattern.Syntax
import RealmBoot.Text.Alphanumeric
import RealmBoot.Text.Hexadecimal

/-!
# Reading Patterns

A reader takes the characters still to come and gives what it read together with what is left, or
nothing if what comes cannot be part of a pattern. In a verbose pattern blanks and comments between
the parts are skipped.

There are no repetitions with a count between braces, and nothing else that needs a closing brace:
where a pattern stands, a brace ends more than the pattern.
-/

namespace RealmBoot

namespace Pattern

/-- Reads something from the start of the characters still to come. -/
abbrev Reader (α : Type) := List Char → Option (α × List Char)

/-- Drops blanks, and comments from a `#` to the end of the line. -/
def dropSpace (inComment : Bool) : List Char → List Char
  | [] => []
  | c :: rest =>
    if inComment then dropSpace (c ≠ '\n') rest
    else if Text.isBlank c then dropSpace false rest
    else if c = '#' then dropSpace true rest
    else c :: rest

/-- Drops what does not count between two parts. -/
def skip (verbose : Bool) (cs : List Char) : List Char :=
  if verbose then dropSpace false cs else cs

/-! ## Atoms -/

/-- The letters of the Unicode properties that have a name of one letter. -/
def propertyLetters : List Char := ['c', 'l', 'm', 'n', 'p', 's', 'z']

/-- The character that a letter after a backslash stands for. -/
def letterEscape? : Char → Option Char
  | 'a' => some '\x07'
  | 'f' => some '\x0c'
  | 'n' => some '\n'
  | 'r' => some '\r'
  | 't' => some '\t'
  | 'v' => some '\x0b'
  | _ => none

/-- Reads a number of the given count of hexadecimal digits, with the value of those before. -/
def hexNumber? (verbose : Bool) : (count value : Nat) → Reader Nat
  | 0, value, cs => some (value, cs)
  | count + 1, value, cs =>
    match skip verbose cs with
    | [] => none
    | c :: rest => do hexNumber? verbose count (16 * value + (← Text.hexDigit? c)) rest

/-- Reads the character whose code point has the given count of hexadecimal digits. -/
def hexChar? (verbose : Bool) (count : Nat) : Reader Char := fun cs => do
  let (n, rest) ← hexNumber? verbose count 0 cs
  some (← Text.charAt? n, rest)

/-- Reads what follows a backslash. Of the ASCII characters, all but letters, digits and the two
angle brackets may follow one and then stand for themselves. -/
def escape? (verbose : Bool) : Reader PatternAtom
  | [] => none
  | c :: rest =>
    if c = 'x' then (hexChar? verbose 2 rest).map fun (x, rest) => (.byte x, rest)
    else if c = 'u' then (hexChar? verbose 4 rest).map fun (x, rest) => (.char x, rest)
    else if c = 'U' then (hexChar? verbose 8 rest).map fun (x, rest) => (.char x, rest)
    else if c = 'p' || c = 'P' then
      match skip verbose rest with
      | [] => none
      | letter :: rest =>
        if propertyLetters.contains letter.toLower then some (.property, rest) else none
    else if ['d', 's', 'w'].contains c then some (.shorthand false, rest)
    else if ['D', 'S', 'W'].contains c then some (.shorthand true, rest)
    else if c = 'A' || c = 'z' then some (.anchor, rest)
    else if ['b', 'B', '<', '>'].contains c then some (.wordEdge, rest)
    else match letterEscape? c with
      | some x => some (.char x, rest)
      | none => if c.toNat < 0x80 && !c.isAlphanum then some (.char c, rest) else none

/-! ## Sets -/

/-- The names of sets of ASCII characters. -/
def setNames : List String :=
  ["alnum", "alpha", "ascii", "blank", "cntrl", "digit", "graph", "lower", "print", "punct",
   "space", "upper", "word", "xdigit"]

/-- Reads what follows the opening bracket of a set with a name. -/
def named? : Reader CharSet
  | ':' :: cs =>
    let (negated, cs) := match cs with
      | '^' :: rest => (true, rest)
      | _ => (false, cs)
    match cs.dropWhile (· ≠ ':') with
    | ':' :: ']' :: rest =>
      if setNames.contains (String.ofList (cs.takeWhile (· ≠ ':'))) then
        some (.named negated, rest)
      else none
    | _ => none
  | _ => none

/-- Reads an atom between brackets, where only a backslash has a meaning. -/
def setAtom? (verbose : Bool) : Reader PatternAtom
  | [] => none
  | '\\' :: rest => escape? verbose rest
  | c :: rest => some (.char c, rest)

/-- The character an atom stands for, if it stands for one. -/
def literal? : PatternAtom → Option Char
  | .char c | .byte c => some c
  | _ => none

/-- An atom as a set. Places have none. -/
def setOf? : PatternAtom → Option CharSet
  | .anchor | .wordEdge => none
  | a => some (.atom a)

/-- The character that decides whether a dash stands for a range: the next one, blanks and the
sign of a comment left aside if the pattern is verbose. -/
def afterDash? (verbose : Bool) (cs : List Char) : Option Char :=
  if verbose then
    match cs.dropWhile Text.isBlank with
    | '#' :: rest => (rest.dropWhile Text.isBlank).head?
    | rest => rest.head?
  else cs.head?

/-- Reads an atom or a range of characters between brackets. A dash before a closing bracket or
another dash makes no range. -/
def range? (verbose : Bool) : Reader CharSet := fun cs => do
  let (first, rest) ← setAtom? verbose cs
  let alone := (setOf? first).map fun s => (s, rest)
  match skip verbose rest with
  | [] => none
  | '-' :: after =>
    if afterDash? verbose after = some ']' || afterDash? verbose after = some '-' then alone
    else
      let (second, rest) ← setAtom? verbose (skip verbose after)
      let low ← literal? first
      let high ← literal? second
      if low ≤ high then some (.range first second, rest) else none
  | _ => alone

/-- Reads dashes that stand for themselves. -/
def dashes (verbose : Bool) : (fuel : Nat) → List CharSet → List Char → List CharSet × List Char
  | fuel + 1, sets, '-' :: rest =>
    dashes verbose fuel (.atom (.char '-') :: sets) (skip verbose rest)
  | _, sets, cs => (sets, cs)

/-- Reads what opens a set after its bracket: whether it is negated, and the characters that stand
for themselves there, which are dashes and, if there are none, a closing bracket. -/
def setOpening (verbose : Bool) (cs : List Char) : Bool × List CharSet × List Char :=
  let cs := skip verbose cs
  let (negated, cs) := match cs with
    | '^' :: rest => (true, skip verbose rest)
    | _ => (false, cs)
  match cs with
  | ']' :: rest => (negated, [.atom (.char ']')], skip verbose rest)
  | _ => (negated, dashes verbose cs.length [] cs)

/-- The set read so far: what stands before the last operation, and what was read after it, last
first. -/
def soFar (before? : Option (SetOperation × CharSet)) (sets : List CharSet) : CharSet :=
  let last := CharSet.unionOf sets.reverse
  match before? with
  | some (operation, before) => .combined operation before last
  | none => last

/-- Reads the rest of a set up to its closing bracket. -/
def restOfSet? (verbose : Bool) : (fuel : Nat) → (before? : Option (SetOperation × CharSet)) →
    (sets : List CharSet) → Reader CharSet
  | 0, _, _, _ => none
  | fuel + 1, before?, sets, cs =>
    let operate (operation : SetOperation) (rest : List Char) :=
      restOfSet? verbose fuel (some (operation, soFar before? sets)) [] rest
    match skip verbose cs with
    | [] => none
    | ']' :: rest => some (soFar before? sets, rest)
    | '&' :: '&' :: rest => operate .intersection rest
    | '-' :: '-' :: rest => operate .difference rest
    | '~' :: '~' :: rest => operate .symmetricDifference rest
    | '[' :: rest =>
      match named? rest with
      | some (s, rest) => restOfSet? verbose fuel before? (s :: sets) rest
      | none => do
        let (negated, first, rest) := setOpening verbose rest
        let (inner, rest) ← restOfSet? verbose fuel none first rest
        restOfSet? verbose fuel before? (.bracket negated inner :: sets) rest
    | cs => do
      let (s, rest) ← range? verbose cs
      restOfSet? verbose fuel before? (s :: sets) rest

/-- Reads what follows the opening bracket of a set. -/
def set? (verbose : Bool) : Reader CharSet := fun cs => do
  let (negated, first, rest) := setOpening verbose cs
  let (inner, rest) ← restOfSet? verbose (cs.length + 1) none first rest
  some (.bracket negated inner, rest)

/-! ## Groups -/

/-- The flag a letter stands for. -/
def flagOf? : Char → Option PatternFlag
  | 'i' => some .caseless
  | 'm' => some .multiline
  | 's' => some .dotAll
  | 'U' => some .reluctant
  | 'u' => some .unicode
  | 'R' => some .carriageReturns
  | 'x' => some .verbose
  | _ => none

/-- Reads flags up to a colon or a closing parenthesis, given those before. Each may stand once; a
dash, after which flags are turned off, may stand once too, and not at the end. -/
def flags? (change : FlagChange) (off : Bool) (afterDash : Bool) : Reader FlagChange
  | [] => none
  | c :: rest =>
    if c = ':' || c = ')' then if afterDash then none else some (change, c :: rest)
    else if c = '-' then if off then none else flags? change true true rest
    else match flagOf? c with
      | none => none
      | some flag =>
        if (change.lookup flag).isSome then none
        else flags? (change ++ [(flag, !off)]) off false rest

/-- Whether a character may stand in the name of a group. -/
def isNameChar (first : Bool) (c : Char) : Bool :=
  if first then c = '_' || Text.isAlphabetic c
  else ['_', '.', '[', ']'].contains c || Text.isAlphanumeric c

/-- Reads the name of a group with the angle bracket after it. -/
def groupName? (cs : List Char) : Option (String × List Char) :=
  let name := cs.takeWhile (· ≠ '>')
  match name, cs.dropWhile (· ≠ '>') with
  | first :: others, '>' :: rest =>
    if isNameChar true first && others.all (isNameChar false) then
      some (String.ofList name, rest)
    else none
  | _, _ => none

/-- What an opening parenthesis begins. -/
inductive Opening where
  /-- A change of flags, which is complete. -/
  | flags (change : FlagChange)
  /-- A group. -/
  | group (name? : Option String) (change : FlagChange)

/-- Reads what follows an opening parenthesis, up to the body of the group. -/
def opening? : Reader Opening
  | '?' :: 'P' :: '<' :: cs => (groupName? cs).map fun (name, rest) => (.group (some name) [], rest)
  | '?' :: '<' :: cs => (groupName? cs).map fun (name, rest) => (.group (some name) [], rest)
  | '?' :: cs =>
    match flags? [] false false cs with
    | some (change, ':' :: rest) => some (.group none change, rest)
    | some (change, ')' :: rest) => if change.isEmpty then none else some (.flags change, rest)
    | _ => none
  | cs => some (.group none [], cs)

/-! ## Patterns -/

/-- The atom a character stands for where it has no other meaning. -/
def plainAtom (c : Char) : PatternAtom :=
  if c = '.' then .any else if c = '^' || c = '$' then .anchor else .char c

/-- The pattern of branches and of the parts of one more branch, all last first. -/
def gather (branches : List Pattern) (parts : List Pattern) : Pattern :=
  choiceOf (sequenceOf parts.reverse :: branches).reverse

/-- Reads a pattern up to its end or to a closing parenthesis, given its branches and the parts of
the present branch so far, both last first. What is repeated is the part before. -/
def body? : (fuel : Nat) → (verbose : Bool) → (branches parts : List Pattern) → Reader Pattern
  | 0, _, _, _, _ => none
  | fuel + 1, verbose, branches, parts, cs =>
    match skip verbose cs with
    | [] => some (gather branches parts, [])
    | c :: rest =>
      if c = ')' then some (gather branches parts, c :: rest)
      else if c = '|' then body? fuel verbose (sequenceOf parts.reverse :: branches) [] rest
      else if c = '(' then
        match opening? (skip verbose rest) with
        | none => none
        | some (.flags change, rest) =>
          body? fuel (change.stateAfter .verbose verbose) branches (.flags change :: parts) rest
        | some (.group name? change, rest) =>
          match body? fuel (change.stateAfter .verbose verbose) [] [] rest with
          | some (inner, ')' :: rest) =>
            body? fuel verbose branches (.group name? change inner :: parts) rest
          | _ => none
      else if c = '[' then do
        let (s, rest) ← set? verbose rest
        body? fuel verbose branches (.set s :: parts) rest
      else if c = '?' || c = '*' || c = '+' then
        match parts with
        | [] | .flags _ :: _ => none
        | p :: parts =>
          let rest := if rest.head? = some '?' then rest.tail else rest
          body? fuel verbose branches (.repeated p :: parts) rest
      else if c = '\x7b' then none
      else if c = '\\' then do
        let (a, rest) ← escape? verbose rest
        body? fuel verbose branches (.atom a :: parts) rest
      else body? fuel verbose branches (.atom (plainAtom c) :: parts) rest

/-- Reads a pattern. -/
def ofChars? (cs : List Char) : Option Pattern :=
  match body? (cs.length + 1) false [] [] cs with
  | some (p, []) => some p
  | _ => none

end Pattern

end RealmBoot
