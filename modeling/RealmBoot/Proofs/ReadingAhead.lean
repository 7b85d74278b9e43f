import Mathlib.Data.List.Induction
import RealmBoot.Proofs.Places

/-!
# Reading Without Looking Ahead

The check of a definition looks one character ahead and skips characters. What it finds can also be
found without either, by a machine that takes one character at a time and keeps in mind what the
last one may begin or end: right after a slash it waits whether a comment is opened, right after a
star whether one is closed, and right after a backslash it lets any character pass. As the machine
is a fold over the characters, what it makes of a text depends on the text before it through the
state alone. This module states the machine and proves that the check finds the same problems; the
modules on the grammar of definitions are about the machine.

## Main results

* `positions_eq_placed`: the table that the check goes through lists the characters of the
  definition and one more line feed, with the places that follow from one another.
* `verdict_turn`: what a turn of the check does, in the steps of the machine.
* `loop_placed`: all turns together.
* `problems_of_visible`: the check finds what the machine finds.
-/

namespace RealmBoot

namespace Lint

/-! ### The machine -/

/-- Where in the language the machine is. -/
inductive Mode where
  /-- In code. -/
  | code
  /-- In code, right after a slash at the given place, which may open a comment. -/
  | slash (opened : Position)
  /-- In a comment that ends with the line. -/
  | lineComment
  /-- In a block comment. -/
  | blockComment (opened : Position)
  /-- In a block comment, right after a star, which may close it. -/
  | star (opened : Position)
  /-- In a string literal. -/
  | literal (quote : Char) (opened : Position)
  /-- In a string literal, right after a backslash. -/
  | escape (quote : Char) (opened : Position)
deriving DecidableEq, Repr

/-- How far the machine has come. -/
inductive State where
  /-- It goes on; the brackets open are listed innermost first. -/
  | reading (mode : Mode) (next : Position) (brackets : List Opened)
  /-- It has met a closing bracket that does not fit. -/
  | stopped (problem : Problem)
deriving DecidableEq, Repr

/-- The state before the first character. -/
def State.start : State := .reading .code .start []

/-- What a character at a place does in code. -/
def inCode (p : Position) (brackets : List Opened) (c : Char) : State :=
  let next := p.after c
  if c = '/' then .reading (.slash p) next brackets
  else if isQuote c then .reading (.literal c p) next brackets
  else match closerOf? c with
    | some closer => .reading .code next (⟨c, closer, p⟩ :: brackets)
    | none =>
      if isCloser c then
        match brackets with
        | [] => .stopped ⟨p, .unmatched c⟩
        | top :: below =>
          if top.closer = c then .reading .code next below
          else .stopped ⟨p, .unexpected c top.closer⟩
      else .reading .code next brackets

/-- What a character at a place does. -/
def stepAt (mode : Mode) (p : Position) (brackets : List Opened) (c : Char) : State :=
  let go (mode : Mode) : State := .reading mode (p.after c) brackets
  match mode with
  | .code => inCode p brackets c
  | .slash opened =>
    if c = '/' then go .lineComment
    else if c = '*' then go (.blockComment opened)
    else inCode p brackets c
  | .lineComment => if c = '\n' then go .code else go .lineComment
  | .blockComment opened => if c = '*' then go (.star opened) else go (.blockComment opened)
  | .star opened =>
    if c = '/' then go .code
    else if c = '*' then go (.star opened)
    else go (.blockComment opened)
  | .literal quote opened =>
    if c = '\\' then go (.escape quote opened)
    else if c = quote then go .code
    else go (.literal quote opened)
  | .escape quote opened => go (.literal quote opened)

/-- What a character does. -/
def State.step : State → Char → State
  | .stopped problem, _ => .stopped problem
  | .reading mode next brackets, c => stepAt mode next brackets c

/-- The state after some more characters. -/
def State.run (s : State) (cs : List Char) : State := cs.foldl State.step s

/-- What is wrong when a text ends in a mode. -/
def Mode.atEnd : Mode → List Problem
  | .code | .slash _ | .lineComment => []
  | .blockComment opened | .star opened => [⟨opened, .openComment⟩]
  | .literal _ opened | .escape _ opened => [⟨opened, .openLiteral⟩]

/-- What is wrong when a text ends in a state. -/
def State.atEnd : State → List Problem
  | .stopped problem => [problem]
  | .reading mode _ brackets =>
    mode.atEnd ++ brackets.reverse.map fun o => ⟨o.position, .neverClosed o.bracket⟩

/-- What is wrong with a text that is read from a state on. -/
def State.verdict (s : State) (cs : List Char) : List Problem := (s.run cs).atEnd

/-- Nothing is read of an empty text. -/
@[simp] theorem State.run_nil (s : State) : s.run [] = s := rfl

/-- A text is read from its first character on. -/
@[simp] theorem State.run_cons (s : State) (c : Char) (cs : List Char) :
    s.run (c :: cs) = (s.step c).run cs := rfl

/-- A text is read part by part. -/
theorem State.run_append (s : State) (a b : List Char) : s.run (a ++ b) = (s.run a).run b := by
  simp [State.run]

/-- Nothing is read any more once the machine has stopped. -/
theorem State.run_stopped (p : Problem) (cs : List Char) :
    (State.stopped p).run cs = .stopped p := by
  induction cs with
  | nil => rfl
  | cons c cs ih => exact ih

/-- What is wrong with a text is what is wrong with the rest of it, from the next state on. -/
theorem State.verdict_cons (s : State) (c : Char) (cs : List Char) :
    s.verdict (c :: cs) = (s.step c).verdict cs := rfl

/-- A machine that has stopped reports why. -/
theorem verdict_stopped (problem : Problem) (cs : List Char) :
    (State.stopped problem).verdict cs = [problem] := by
  rw [State.verdict, State.run_stopped, State.atEnd]

/-! ### The table -/

variable {p opened : Position} {brackets : List Opened} {c : Char} {cs : List Char}
  {line column : Nat} {text rest : List Char}

/-- Characters with the places that follow from the first one. -/
def placed : Position → List Char → List Placed
  | _, [] => []
  | p, c :: cs => ⟨c, p⟩ :: placed (p.after c) cs

/-- The characters of a line are counted in columns, and the line feed leads to the next line. -/
theorem placed_line (h : '\n' ∉ text) (line column : Nat) (rest : List Char) :
    placed ⟨line, column⟩ (text ++ '\n' :: rest) =
      (text.zipIdx column).map (fun c => ⟨c.1, ⟨line, c.2⟩⟩) ++
        ⟨'\n', ⟨line, column + text.length⟩⟩ :: placed ⟨line + 1, 1⟩ rest := by
  induction text generalizing column with
  | nil => rfl
  | cons c text ih =>
      obtain ⟨hc, htext⟩ := not_or.mp (fun hmem => h (List.mem_cons.mpr hmem))
      have hafter : Position.after ⟨line, column⟩ c = ⟨line, column + 1⟩ := if_neg (Ne.symm hc)
      rw [List.cons_append, placed, hafter, ih htext, List.zipIdx_cons, List.map_cons,
        List.cons_append, List.length_cons, Nat.add_assoc, Nat.add_comm 1]

/-- The lines of a text, from a line on, list its characters and one more line feed. -/
theorem flatMap_placedLine (cs : List Char) (line : Nat) :
    ((Text.pieces '\n' cs).zipIdx line).flatMap (fun l => placedLine l.2 l.1) =
      placed ⟨line, 1⟩ (cs ++ ['\n']) := by
  induction hlength : cs.length using Nat.strong_induction_on generalizing cs line with
  | _ n ih =>
      by_cases hfeed : '\n' ∈ cs
      · obtain ⟨text, rest, rfl, htext⟩ := List.eq_append_cons_of_mem hfeed
        have hshorter : rest.length < n := by
          rw [← hlength, List.length_append, List.length_cons]
          omega
        rw [Text.pieces_append_sep htext, List.zipIdx_cons, List.flatMap_cons,
          ih _ hshorter rest _ rfl, List.append_assoc, List.cons_append, placed_line htext,
          placedLine, List.append_assoc, List.singleton_append, Nat.add_comm 1]
      · rw [Text.pieces_eq_singleton hfeed, placed_line hfeed]
        simp [placedLine, placed, Nat.add_comm]

/-- **The table** lists the characters of a definition and one more line feed. -/
theorem positions_eq_placed (script : String) :
    positions script = placed .start (script.toList ++ ['\n']) :=
  flatMap_placedLine script.toList 1

/-! ### Turns -/

/-- Where the machine is when the check begins a turn. -/
def Scan.mode : Scan → Mode
  | .code => .code
  | .lineComment => .lineComment
  | .blockComment opened => .blockComment opened
  | .quoted quote opened => .literal quote opened

/-- A check that ends has the problems of the machine. -/
theorem atEnd_eq (scan : Scan) (p : Position) (brackets : List Opened) :
    atEnd scan brackets = (State.reading scan.mode p brackets).verdict [] := by
  cases scan <;> rfl

/-- What is wrong with a text after a turn, as the machine sees it. -/
def Turn.verdict (p : Position) (cs : List Char) : Turn → List Problem
  | .stop problem => [problem]
  | .go scan brackets => (State.reading scan.mode p brackets).verdict cs
  | .skip scan brackets =>
    match cs with
    | [] => atEnd scan brackets
    | d :: rest => (State.reading scan.mode (p.after d) brackets).verdict rest

/-- Right after a slash, a character that opens no comment is read as in code. -/
theorem verdict_after_slash (hslash : cs.head? ≠ some '/') (hstar : cs.head? ≠ some '*') :
    (State.reading (.slash opened) p brackets).verdict cs =
      (State.reading .code p brackets).verdict cs := by
  cases cs with
  | nil => rfl
  | cons c cs =>
      have hslash' : c ≠ '/' := fun h => hslash (congrArg some h)
      have hstar' : c ≠ '*' := fun h => hstar (congrArg some h)
      simp only [State.verdict_cons, State.step, stepAt, if_neg hslash', if_neg hstar']

/-- Right after a star, a character that is no slash is read as anywhere in the comment. -/
theorem verdict_after_star (hslash : cs.head? ≠ some '/') :
    (State.reading (.star opened) p brackets).verdict cs =
      (State.reading (.blockComment opened) p brackets).verdict cs := by
  cases cs with
  | nil => rfl
  | cons c cs =>
      have hslash' : c ≠ '/' := fun h => hslash (congrArg some h)
      simp only [State.verdict_cons, State.step, stepAt, if_neg hslash']

/-- A turn in code, at a slash. -/
theorem verdict_turn_slash (p : Position) (brackets : List Opened) (cs : List Char) :
    (State.reading .code p brackets).verdict ('/' :: cs) =
      (turn .code brackets ⟨'/', p⟩ cs.head?).verdict (p.after '/') cs := by
  by_cases hslash : cs.head? = some '/'
  · obtain ⟨rest, rfl⟩ := List.head?_eq_some_iff.mp hslash
    rfl
  · by_cases hstar : cs.head? = some '*'
    · obtain ⟨rest, rfl⟩ := List.head?_eq_some_iff.mp hstar
      rfl
    · have hturn : turn .code brackets ⟨'/', p⟩ cs.head? = .go .code brackets := by
        simp only [turn, hslash, hstar, and_false, if_false]
        rfl
      rw [hturn]
      exact verdict_after_slash hslash hstar

/-- A turn in code, at another character. -/
theorem verdict_turn_code (hc : c ≠ '/') (p : Position) (brackets : List Opened) (cs : List Char) :
    (State.reading .code p brackets).verdict (c :: cs) =
      (turn .code brackets ⟨c, p⟩ cs.head?).verdict (p.after c) cs := by
  rw [State.verdict_cons, State.step, stepAt]
  simp only [inCode, turn, hc, false_and, if_false]
  cases isQuote c with
  | true => rfl
  | false =>
      cases closerOf? c with
      | some closer => rfl
      | none =>
          cases isCloser c with
          | false => rfl
          | true =>
              cases brackets with
              | nil => exact verdict_stopped _ _
              | cons top below =>
                  by_cases htop : top.closer = c
                  · simp only [htop, Bool.false_eq_true, if_false, if_true]
                    rfl
                  · simp only [htop, Bool.false_eq_true, if_false, if_true]
                    exact verdict_stopped _ _

/-- **What a turn of the check does,** the machine does in one step, or in two where the turn takes
the next character with it. -/
theorem verdict_turn (scan : Scan) (p : Position) (brackets : List Opened) (c : Char)
    (cs : List Char) :
    (State.reading scan.mode p brackets).verdict (c :: cs) =
      (turn scan brackets ⟨c, p⟩ cs.head?).verdict (p.after c) cs := by
  cases scan with
  | code =>
      by_cases hc : c = '/'
      · subst hc
        exact verdict_turn_slash p brackets cs
      · exact verdict_turn_code hc p brackets cs
  | lineComment =>
      by_cases hc : c = '\n'
      · subst hc
        rfl
      · simp only [State.verdict_cons, Scan.mode, State.step, stepAt, turn, if_neg hc, Turn.verdict]
  | blockComment opened =>
      by_cases hc : c = '*'
      · subst hc
        by_cases hslash : cs.head? = some '/'
        · obtain ⟨rest, rfl⟩ := List.head?_eq_some_iff.mp hslash
          rfl
        · have hturn : turn (.blockComment opened) brackets ⟨'*', p⟩ cs.head? =
              .go (.blockComment opened) brackets := by
            simp only [turn, hslash, and_false, if_false]
          rw [hturn]
          exact verdict_after_star hslash
      · simp only [State.verdict_cons, Scan.mode, State.step, stepAt, turn, hc, false_and, if_false,
          Turn.verdict]
  | quoted quote opened =>
      by_cases hescape : c = '\\'
      · subst hescape
        cases cs <;> rfl
      · by_cases hquote : c = quote
        · simp only [State.verdict_cons, Scan.mode, State.step, stepAt, turn, if_neg hescape,
            if_pos hquote, Turn.verdict]
        · simp only [State.verdict_cons, Scan.mode, State.step, stepAt, turn, if_neg hescape,
            if_neg hquote, Turn.verdict]

/-- **The turns of the check,** one after another, find what the machine finds. The induction goes
back two characters, as a turn may take two. -/
theorem loop_placed (scan : Scan) (p : Position) (brackets : List Opened) (cs : List Char) :
    loop scan brackets (placed p cs) = (State.reading scan.mode p brackets).verdict cs := by
  induction cs using List.twoStepInduction generalizing scan p brackets with
  | nil => exact atEnd_eq scan p brackets
  | singleton c =>
      rw [verdict_turn, placed, placed, loop, List.head?_nil, List.head?_nil, Option.map_none]
      cases turn scan brackets ⟨c, p⟩ none with
      | stop problem => rfl
      | go scan brackets => exact atEnd_eq _ _ _
      | skip scan brackets => rfl
  | cons_cons c d cs ihskip ihgo =>
      rw [verdict_turn, placed, placed, loop, List.head?_cons, List.head?_cons, Option.map_some]
      cases turn scan brackets ⟨c, p⟩ (some d) with
      | stop problem => rfl
      | go scan brackets => exact ihgo d scan _ brackets
      | skip scan brackets => exact ihskip scan _ brackets

/-! ### The whole check -/

/-- String literals are opened by quotes. -/
def Mode.Sound : Mode → Prop
  | .literal quote _ | .escape quote _ => isQuote quote = true
  | _ => True

/-- Unless it has stopped, the machine is in a sound mode. -/
def State.Sound : State → Prop
  | .reading mode _ _ => mode.Sound
  | .stopped _ => True

/-- A literal is opened in code by quotes only. -/
theorem sound_inCode (p : Position) (brackets : List Opened) (c : Char) :
    (inCode p brackets c).Sound := by
  simp only [inCode]
  split
  · trivial
  · split
    · assumption
    · split
      · trivial
      · split
        · split
          · trivial
          · split <;> trivial
        · trivial

/-- A character leaves the machine in a sound mode. -/
theorem State.Sound.step {s : State} (h : s.Sound) (c : Char) : (s.step c).Sound := by
  cases s with
  | stopped problem => trivial
  | reading mode next brackets =>
      cases mode with
      | code => exact sound_inCode next brackets c
      | slash opened =>
          simp only [State.step, stepAt]
          split
          · trivial
          · split
            · trivial
            · exact sound_inCode next brackets c
      | lineComment | blockComment opened =>
          simp only [State.step, stepAt]
          split <;> trivial
      | star opened =>
          simp only [State.step, stepAt]
          split
          · trivial
          · split <;> trivial
      | literal quote opened =>
          simp only [State.step, stepAt]
          split
          · exact h
          · split
            · trivial
            · exact h
      | escape quote opened => exact h

/-- So does a text. -/
theorem State.Sound.run {s : State} (h : s.Sound) (cs : List Char) : (s.run cs).Sound := by
  induction cs generalizing s with
  | nil => exact h
  | cons c cs ih => exact ih (h.step c)

/-- A line feed at the end changes nothing, as it is no quote. -/
theorem State.Sound.atEnd_lineFeed {s : State} (h : s.Sound) : (s.step '\n').atEnd = s.atEnd := by
  cases s with
  | stopped problem => rfl
  | reading mode next brackets =>
      cases mode with
      | literal quote opened =>
          have hquote : '\n' ≠ quote := by
            rintro rfl
            cases h
          simp only [State.step, stepAt, if_neg hquote]
          rfl
      | _ => rfl

/-- A definition that is blank has one problem. -/
theorem problems_of_blank {script : String} (h : Text.isBlankText script = true) :
    problems script = [⟨.start, .empty⟩] := by
  rw [problems, h, if_pos rfl]

/-- **The check finds what the machine finds,** in every definition that is not blank. -/
theorem problems_of_visible {script : String} (h : Text.isBlankText script = false) :
    problems script = State.start.verdict script.toList := by
  have hstart : State.start.Sound := trivial
  rw [problems, h, if_neg Bool.false_ne_true, positions_eq_placed, loop_placed, State.verdict,
    State.run_append]
  exact (hstart.run script.toList).atEnd_lineFeed

end Lint

end RealmBoot
