import RealmBoot.Proofs.Completion

/-!
# Definitions One After the Other

A definition without problems leaves nothing open: its brackets, literals and block comments are
closed, and a comment that ends with its line ends with the next line feed. What follows in a new
line is therefore checked as if it stood alone, only further down.

## Main results

* `run_lowered`: the check does not depend on the place where it begins.
* `run_of_accepted`: after a definition without problems, a line feed leads back to code.
* `problems_newline`: the problems of what follows such a definition.
-/

namespace RealmBoot

namespace Lint

variable {p : Position} {brackets : List Opened}

/-! ### Moving a text down -/

/-- A place some lines further down. -/
def Position.lowered (n : Nat) (p : Position) : Position := ⟨p.line + n, p.column⟩

/-- A problem some lines further down. -/
def Problem.lowered (n : Nat) (q : Problem) : Problem := ⟨q.position.lowered n, q.issue⟩

/-- An open bracket some lines further down. -/
def Opened.lowered (n : Nat) (o : Opened) : Opened := ⟨o.bracket, o.closer, o.position.lowered n⟩

/-- A mode that was entered some lines further down. -/
def Mode.lowered (n : Nat) : Mode → Mode
  | .code => .code
  | .slash opened => .slash (opened.lowered n)
  | .lineComment => .lineComment
  | .blockComment opened => .blockComment (opened.lowered n)
  | .star opened => .star (opened.lowered n)
  | .literal quote opened => .literal quote (opened.lowered n)
  | .escape quote opened => .escape quote (opened.lowered n)

/-- A state some lines further down. -/
def State.lowered (n : Nat) : State → State
  | .reading mode next brackets =>
    .reading (mode.lowered n) (next.lowered n) (brackets.map (Opened.lowered n))
  | .stopped problem => .stopped (problem.lowered n)

/-- Positions further down follow one another as those above do. -/
theorem after_lowered (n : Nat) (p : Position) (c : Char) :
    (p.lowered n).after c = (p.after c).lowered n := by
  unfold Position.after
  split
  · simp only [Position.lowered, Nat.add_right_comm]
  · rfl

/-- A character in code is read further down as above. -/
theorem inCode_lowered (n : Nat) (p : Position) (brackets : List Opened) (c : Char) :
    inCode (p.lowered n) (brackets.map (Opened.lowered n)) c = (inCode p brackets c).lowered n := by
  rcases char_cases c with rfl | hquote | ⟨closer, hopener⟩ | hcloser | ⟨hslash, hc⟩
  · rw [inCode_slash, inCode_slash, after_lowered]
    rfl
  · rw [inCode_quote hquote, inCode_quote hquote, after_lowered]
    rfl
  · rw [inCode_opener hopener, inCode_opener hopener, after_lowered]
    rfl
  · rw [inCode_closer hcloser, inCode_closer hcloser, after_lowered]
    cases brackets with
    | nil => rfl
    | cons top below =>
        have hsame : (top.lowered n).closer = top.closer := rfl
        by_cases htop : top.closer = c
        · simp only [List.map_cons, hsame, if_pos htop]
          rfl
        · simp only [List.map_cons, hsame, if_neg htop]
          rfl
  · rw [inCode_ordinary hslash hc, inCode_ordinary hslash hc, after_lowered]
    rfl

/-- What a character does is the same further down. -/
theorem step_lowered (n : Nat) (s : State) (c : Char) :
    (s.lowered n).step c = (s.step c).lowered n := by
  cases s with
  | stopped problem => rfl
  | reading mode p brackets =>
      cases mode with
      | code => exact inCode_lowered n p brackets c
      | slash opened =>
          simp only [State.lowered, State.step, Mode.lowered, stepAt, after_lowered, inCode_lowered]
          split_ifs <;> rfl
      | lineComment | blockComment opened | star opened | literal quote opened =>
          simp only [State.lowered, State.step, Mode.lowered, stepAt, after_lowered]
          split_ifs <;> rfl
      | escape quote opened =>
          simp only [State.lowered, State.step, Mode.lowered, stepAt, after_lowered]

/-- **The check does not depend on the place where it begins.** -/
theorem run_lowered (n : Nat) (s : State) (cs : List Char) :
    (s.lowered n).run cs = (s.run cs).lowered n := by
  induction cs generalizing s with
  | nil => rfl
  | cons c cs ih => rw [State.run_cons, State.run_cons, step_lowered, ih]

/-- So is the end. -/
theorem atEnd_lowered (n : Nat) (s : State) :
    (s.lowered n).atEnd = s.atEnd.map (Problem.lowered n) := by
  cases s with
  | stopped problem => rfl
  | reading mode p brackets =>
      have hmode : (mode.lowered n).atEnd = mode.atEnd.map (Problem.lowered n) := by
        cases mode <;> rfl
      simp only [State.lowered, State.atEnd, hmode, List.map_append, ← List.map_reverse,
        List.map_map]
      rfl

/-! ### After a definition without problems -/

/-- A line feed ends whatever may be pending at the end of a definition without problems. -/
theorem step_lineFeed {mode : Mode} (h : mode.atEnd = []) :
    (State.reading mode p brackets).step '\n' = .reading .code (p.after '\n') brackets := by
  cases mode with
  | code | slash opened | lineComment => rfl
  | blockComment opened | star opened | literal quote opened | escape quote opened => cases h

/-- **What follows a definition without problems in a new line is read in code,** with no bracket
open. -/
theorem run_of_accepted {cs : List Char} (h : State.start.verdict cs = []) :
    State.start.run (cs ++ ['\n']) = State.start.lowered (1 + cs.count '\n') := by
  have hplace : (place cs).after '\n' = Position.start.lowered (1 + cs.count '\n') := by
    simp only [place, Position.after, if_true, Position.lowered, Position.start, Position.mk.injEq,
      and_true]
    omega
  rw [State.verdict] at h
  rcases viable_or_stops viable_start cs with
    ⟨mode, brackets, hrun, -⟩ | ⟨before, found, after, -, -, issue, -, hstops⟩
  · rw [hrun, State.atEnd, List.append_eq_nil_iff, List.map_eq_nil_iff,
      List.reverse_eq_nil_iff] at h
    obtain ⟨hmode, rfl⟩ := h
    rw [State.run_append, hrun, State.run_cons, State.run_nil, step_lineFeed hmode, start_along,
      hplace]
    rfl
  · rw [hstops] at h
    cases h

/-- **Definitions one after the other.** After a definition without problems and a line feed,
another one has the problems it has alone, lower by the lines before it. A blank one has none. -/
theorem problems_newline (first second : String) (hfirst : problems first = []) :
    problems (first ++ "\n" ++ second) =
      if Text.isBlankText second then []
      else (problems second).map (Problem.lowered (1 + first.toList.count '\n')) := by
  have hvisible : Text.isBlankText first = false := by
    by_contra hblank
    rw [Bool.not_eq_false] at hblank
    rw [problems_of_blank hblank] at hfirst
    cases hfirst
  have hwhole : Text.isBlankText (first ++ "\n" ++ second) = false := by
    rw [Text.isBlankText_append, Text.isBlankText_append, hvisible, Bool.false_and, Bool.false_and]
  rw [problems_of_visible hvisible] at hfirst
  have hseam : problems (first ++ "\n" ++ second) =
      (State.start.verdict second.toList).map
        (Problem.lowered (1 + first.toList.count '\n')) := by
    rw [problems_of_visible hwhole, State.verdict, String.toList_append, String.toList_append,
      State.run_append]
    change ((State.start.run (first.toList ++ ['\n'])).run second.toList).atEnd = _
    rw [run_of_accepted hfirst, run_lowered, atEnd_lowered, State.verdict]
  rw [hseam]
  cases hblank : Text.isBlankText second with
  | true =>
      have hrun : State.start.run second.toList =
          .reading .code (Position.start.along second.toList) [] :=
        run_blanks (List.all_eq_true.mp hblank)
      rw [State.verdict, hrun]
      rfl
  | false =>
      rw [problems_of_visible hblank]
      rfl

/-- A comment at the end of the first definition does not reach into the second one. -/
theorem problems_newline_comment :
    problems "node \x7b \x7d\n// \x7b" = [] ∧
      problems ("node \x7b \x7d\n// \x7b" ++ "\n" ++ "steps(") =
        [⟨⟨3, 6⟩, .neverClosed '('⟩] := by
  have hfirst : problems "node \x7b \x7d\n// \x7b" = [] := by decide
  refine ⟨hfirst, ?_⟩
  rw [problems_newline _ _ hfirst]
  decide

end Lint

end RealmBoot
