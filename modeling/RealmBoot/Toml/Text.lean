import RealmBoot.Text.Hexadecimal
import RealmBoot.Text.Pieces

/-!
# Texts, Blanks and Keys in TOML

What separates the parts of a document, and the four ways to write a text. A reader takes the
characters still to come and gives what it read together with what is left.

A text is read in two goes: first its end is found, which depends on quotes and backslashes alone;
then what lies before the end is checked and its escapes are resolved.
-/

namespace RealmBoot

namespace Toml

/-- Reads something from the start of the characters still to come. -/
abbrev Reader (α : Type) := List Char → Option (α × List Char)

/-- Whether a character separates without ending a line. -/
def isSpace (c : Char) : Bool := c = ' ' || c = '\t'

/-- Whether a character may stand in a comment or a text: no control character but the tab. -/
def isPlain (c : Char) : Bool := c = '\t' || (' ' ≤ c && c ≠ '\x7f')

/-- Drops leading spaces. -/
def skipSpaces (cs : List Char) : List Char := cs.dropWhile isSpace

/-- Drops one line end. -/
def afterNewline? : List Char → Option (List Char)
  | '\n' :: rest => some rest
  | '\r' :: '\n' :: rest => some rest
  | _ => none

/-- Drops a line end if there is one. -/
def dropNewline (cs : List Char) : List Char := (afterNewline? cs).getD cs

/-- Drops a comment if there is one. -/
def skipComment : List Char → List Char
  | '#' :: rest => rest.dropWhile isPlain
  | cs => cs

/-- Drops what may end a line: spaces, a comment, and the line end or the end of the document. -/
def afterLine? (cs : List Char) : Option (List Char) :=
  match skipComment (skipSpaces cs) with
  | [] => some []
  | rest => afterNewline? rest

/-- Drops spaces, line ends and comments. -/
def skipBlanks (inComment : Bool) : List Char → List Char
  | [] => []
  | c :: rest =>
    if inComment && isPlain c then skipBlanks true rest
    else if isSpace c || c = '\n' then skipBlanks false rest
    else if c = '\r' && rest.head? = some '\n' then skipBlanks false rest
    else if c = '#' then skipBlanks true rest
    else c :: rest

/-- Where an escape at the end of a line has got to. -/
inductive Fold where
  /-- There is none. -/
  | none
  /-- The backslash has been read; the line has to end. -/
  | pending
  /-- The line has ended; blanks are dropped. -/
  | dropping
deriving DecidableEq

/-- The character of a short escape. -/
def shortEscape? : Char → Option Char
  | 'b' => some '\x08'
  | 'f' => some '\x0c'
  | 'n' => some '\n'
  | 'r' => some '\r'
  | 't' => some '\t'
  | '"' => some '"'
  | '\\' => some '\\'
  | _ => .none

/-- Resolves the escapes of a text. With `multiline` it may have line ends, which all become line
feeds, and a backslash at the end of a line drops all blanks up to the next other character. -/
def unescape (multiline : Bool) : Fold → List Char → Option (List Char)
  | .pending, [] => .none
  | _, [] => some []
  | fold, c :: rest =>
    let breaks := c = '\n' || (c = '\r' && rest.head? = some '\n')
    if fold = .dropping && (isSpace c || breaks) then unescape multiline .dropping rest
    else if fold = .pending then
      if isSpace c then unescape multiline .pending rest
      else if c = '\n' then unescape multiline .dropping rest
      else if breaks then unescape multiline .pending rest
      else .none
    else if c = '\\' then
      match rest with
      | 'u' :: a :: b :: c :: d :: rest => do
        let x ← Text.ofHex? [a, b, c, d]
        (unescape multiline .none rest).map (x :: ·)
      | 'U' :: a :: b :: c :: d :: e :: f :: g :: h :: rest => do
        let x ← Text.ofHex? [a, b, c, d, e, f, g, h]
        (unescape multiline .none rest).map (x :: ·)
      | x :: rest =>
        match shortEscape? x with
        | some y => (unescape multiline .none rest).map (y :: ·)
        | .none =>
          if !multiline then .none
          else if isSpace x then unescape multiline .pending rest
          else if x = '\n' then unescape multiline .dropping rest
          else if x = '\r' && rest.head? = some '\n' then unescape multiline .pending rest
          else .none
      | [] => .none
    else if isPlain c then (unescape multiline .none rest).map (c :: ·)
    else if multiline && c = '\n' then (unescape multiline .none rest).map (c :: ·)
    else if multiline && breaks then unescape multiline .none rest
    else .none

/-- Checks a text without escapes. With `multiline` it may have line ends, which become line
feeds. -/
def plainText (multiline : Bool) : List Char → Option (List Char)
  | [] => some []
  | c :: rest =>
    if isPlain c || (multiline && c = '\n') then (plainText multiline rest).map (c :: ·)
    else if multiline && c = '\r' && rest.head? = some '\n' then plainText multiline rest
    else .none

/-- Puts a character in front of what was read. -/
def consRead (c : Char) (r : List Char × List Char) : List Char × List Char := (c :: r.1, r.2)

/-- What stands before a quote; with `escapes` a backslash hides the character after it. -/
def untilQuote (quote : Char) (escapes : Bool) : Reader (List Char)
  | [] => .none
  | c :: rest =>
    if c = quote then some ([], rest)
    else if escapes && c = '\\' then
      match rest with
      | [] => .none
      | d :: rest => (untilQuote quote escapes rest).map (consRead c ∘ consRead d)
    else (untilQuote quote escapes rest).map (consRead c)

/-- What stands before three quotes, of which up to two more may belong to the text; with `escapes`
a backslash hides the character after it. -/
def untilTriple (quote : Char) (escapes : Bool) : Reader (List Char)
  | [] => .none
  | c :: rest =>
    if (c :: rest).take 5 = List.replicate 5 quote then some ([quote, quote], rest.drop 4)
    else if (c :: rest).take 4 = List.replicate 4 quote then some ([quote], rest.drop 3)
    else if (c :: rest).take 3 = List.replicate 3 quote then some ([], rest.drop 2)
    else if escapes && c = '\\' then
      match rest with
      | [] => .none
      | d :: rest => (untilTriple quote escapes rest).map (consRead c ∘ consRead d)
    else (untilTriple quote escapes rest).map (consRead c)

/-- Reads a text on one line, the opening quote having been read. -/
def lineText (quote : Char) : Reader String := fun cs => do
  let escapes := quote = '"'
  let (raw, rest) ← untilQuote quote escapes cs
  let text ← if escapes then unescape false .none raw else plainText false raw
  some (String.ofList text, rest)

/-- Reads a text of several lines, the opening quotes having been read. -/
def blockText (quote : Char) : Reader String := fun cs => do
  let escapes := quote = '"'
  let (raw, rest) ← untilTriple quote escapes (dropNewline cs)
  let text ← if escapes then unescape true .none raw else plainText true raw
  some (String.ofList text, rest)

/-- Reads a text. -/
def text : Reader String
  | '"' :: '"' :: '"' :: rest => blockText '"' rest
  | '\'' :: '\'' :: '\'' :: rest => blockText '\'' rest
  | '"' :: rest => lineText '"' rest
  | '\'' :: rest => lineText '\'' rest
  | _ => .none

/-- Whether a character may stand in a key without quotes. -/
def isBare (c : Char) : Bool := c.isAlphanum || c = '-' || c = '_'

/-- Reads one key. -/
def simpleKey : Reader String
  | '"' :: rest => lineText '"' rest
  | '\'' :: rest => lineText '\'' rest
  | cs =>
    let key := cs.takeWhile isBare
    if key.isEmpty then .none else some (String.ofList key, cs.dropWhile isBare)

/-- Reads at most `limit` keys with dots between them and spaces around them. -/
def keys : (limit : Nat) → Reader (List String)
  | 0, _ => .none
  | limit + 1, cs => do
    let (key, rest) ← simpleKey (skipSpaces cs)
    match skipSpaces rest with
    | '.' :: rest =>
      let (more, rest) ← keys limit rest
      some (key :: more, rest)
    | rest => some ([key], rest)

/-- The number of levels to which keys, arrays and tables may be nested. -/
def depthLimit : Nat := 79

/-- Reads a dotted key. -/
def dottedKey : Reader (List String) := keys depthLimit

end Toml

end RealmBoot
