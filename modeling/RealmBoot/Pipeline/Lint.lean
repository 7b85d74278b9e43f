import RealmBoot.Text.Blank
import RealmBoot.Text.Pieces

/-!
# Checking a Definition's Structure

A pipeline definition has to close every bracket, string literal and block comment it opens. The
check first makes a table of the characters of the definition with their places, in which a line
feed ends every line, the last one as well. It then goes through the table. At each turn it looks at
one character and ahead at the next one, which tells where comments begin and end, and some turns
take the next character with them. A closing bracket that does not fit ends the check; everything
left open is reported at the end.

* `Lint.positions`: the characters of a definition with their places.
* `Lint.turn`: what the check makes of one character.
* `Lint.loop`: the turns, one after another.
* `Lint.problems`: the problems of a definition.
-/

namespace RealmBoot

namespace Lint

/-- A place in a text, both counts starting at one. -/
structure Position where
  /-- The number of the line. -/
  line : Nat
  /-- The number of the character in its line. -/
  column : Nat
deriving DecidableEq, Repr, Inhabited

/-- The place of the first character. -/
def Position.start : Position := ⟨1, 1⟩

/-- A character of a definition, and its place. -/
structure Placed where
  /-- The character. -/
  char : Char
  /-- Its place. -/
  position : Position
deriving DecidableEq, Repr

/-- The characters of a line with their places, and the line feed that ends it. -/
def placedLine (line : Nat) (text : List Char) : List Placed :=
  (text.zipIdx 1).map (fun c => ⟨c.1, ⟨line, c.2⟩⟩) ++ [⟨'\n', ⟨line, text.length + 1⟩⟩]

/-- The characters of a definition with their places. -/
def positions (script : String) : List Placed :=
  ((Text.pieces '\n' script.toList).zipIdx 1).flatMap fun line => placedLine line.2 line.1

/-- What can be wrong with a definition. -/
inductive Issue where
  /-- It is blank. -/
  | empty
  /-- A closing bracket, while another one is due. -/
  | unexpected (found expected : Char)
  /-- A closing bracket, while no bracket is open. -/
  | unmatched (found : Char)
  /-- A block comment that does not end. -/
  | openComment
  /-- A string literal that does not end. -/
  | openLiteral
  /-- A bracket that is not closed. -/
  | neverClosed (opened : Char)
deriving DecidableEq, Repr

/-- The text of an issue. -/
def Issue.text : Issue → String
  | empty => "pipeline definition is empty"
  | unexpected found expected =>
    "unexpected '" ++ found.toString ++ "', expecting '" ++ expected.toString ++ "'"
  | unmatched found => "unexpected '" ++ found.toString ++ "' without a matching opener"
  | openComment => "unterminated comment"
  | openLiteral => "unterminated string literal"
  | neverClosed opened => "'" ++ opened.toString ++ "' is never closed"

/-- An issue at the place of the character it concerns. -/
structure Problem where
  /-- The place. -/
  position : Position
  /-- The issue. -/
  issue : Issue
deriving DecidableEq, Repr

/-- How a problem is shown. -/
def Problem.text (p : Problem) : String :=
  "WorkflowScript: " ++ toString p.position.line ++ ": " ++ p.issue.text ++ " @ line " ++
    toString p.position.line ++ ", column " ++ toString p.position.column ++ "."

/-- The bracket that closes an opening one. -/
def closerOf? : Char → Option Char
  | '{' => some '}'
  | '(' => some ')'
  | '[' => some ']'
  | _ => none

/-- Whether a character is a closing bracket. -/
def isCloser (c : Char) : Bool := c = '}' || c = ')' || c = ']'

/-- Whether a character opens and closes string literals. -/
def isQuote (c : Char) : Bool := c = '\'' || c = '"'

/-- An open bracket: its character, its closer, and its place. -/
structure Opened where
  /-- The bracket. -/
  bracket : Char
  /-- What closes it. -/
  closer : Char
  /-- Its place. -/
  position : Position
deriving DecidableEq, Repr

/-- Where in the language the check is. -/
inductive Scan where
  /-- In code. -/
  | code
  /-- In a comment that ends with the line. -/
  | lineComment
  /-- In a block comment that was opened at the given place. -/
  | blockComment (opened : Position)
  /-- In a string literal that was opened at the given place. -/
  | quoted (quote : Char) (opened : Position)
deriving DecidableEq, Repr

/-- What comes of a turn. The brackets open are listed innermost first. -/
inductive Turn where
  /-- A closing bracket does not fit. -/
  | stop (problem : Problem)
  /-- The check goes on with the next character. -/
  | go (scan : Scan) (brackets : List Opened)
  /-- The check goes on with the character after the next one. -/
  | skip (scan : Scan) (brackets : List Opened)

/-- What the check makes of a character, with the next one in view. -/
def turn (scan : Scan) (brackets : List Opened) (c : Placed) (next? : Option Char) : Turn :=
  match scan with
  | .code =>
    if c.char = '/' ∧ next? = some '/' then .go .lineComment brackets
    else if c.char = '/' ∧ next? = some '*' then .skip (.blockComment c.position) brackets
    else if isQuote c.char then .go (.quoted c.char c.position) brackets
    else match closerOf? c.char with
      | some closer => .go .code (⟨c.char, closer, c.position⟩ :: brackets)
      | none =>
        if isCloser c.char then
          match brackets with
          | [] => .stop ⟨c.position, .unmatched c.char⟩
          | top :: below =>
            if top.closer = c.char then .go .code below
            else .stop ⟨c.position, .unexpected c.char top.closer⟩
        else .go .code brackets
  | .lineComment => .go (if c.char = '\n' then .code else .lineComment) brackets
  | .blockComment opened =>
    if c.char = '*' ∧ next? = some '/' then .skip .code brackets
    else .go (.blockComment opened) brackets
  | .quoted quote opened =>
    if c.char = '\\' then .skip (.quoted quote opened) brackets
    else if c.char = quote then .go .code brackets
    else .go (.quoted quote opened) brackets

/-- What is wrong when a definition ends: a comment or a string literal does not end, and then the
brackets that are open, first to last. -/
def atEnd (scan : Scan) (brackets : List Opened) : List Problem :=
  (match scan with
    | .code | .lineComment => []
    | .blockComment opened => [⟨opened, .openComment⟩]
    | .quoted _ opened => [⟨opened, .openLiteral⟩]) ++
  brackets.reverse.map fun o => ⟨o.position, .neverClosed o.bracket⟩

/-- Goes through characters, turn by turn. -/
def loop : Scan → List Opened → List Placed → List Problem
  | scan, brackets, [] => atEnd scan brackets
  | scan, brackets, c :: rest =>
    match turn scan brackets c (rest.head?.map (·.char)) with
    | .stop problem => [problem]
    | .go scan brackets => loop scan brackets rest
    | .skip scan brackets =>
      match rest with
      | [] => atEnd scan brackets
      | _ :: rest => loop scan brackets rest

/-- The problems of a definition. -/
def problems (script : String) : List Problem :=
  if Text.isBlankText script then [⟨.start, .empty⟩] else loop .code [] (positions script)

end Lint

end RealmBoot
