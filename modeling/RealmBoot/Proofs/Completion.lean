import RealmBoot.Proofs.ScriptGrammar

/-!
# Completing a Definition

A definition may be wrong because it breaks off: a bracket, a comment or a literal is still open,
and more text can close it. Or it may be wrong beyond repair: a closing bracket stands where none,
or another one, is due. The check tells the two apart. It stops at a closing bracket of the second
kind and goes on otherwise, so that it refuses a definition early exactly if nothing that could
follow would make it right.

## Main results

* `viable_or_stops`: the check goes on to the end of a text, or stops at one of its characters after
  a text at whose end it could go on.
* `exists_completion`: where the check goes on, some text leaves no problem.
* `repairable_iff`: a definition can be completed if and only if no closing bracket is reported as
  misplaced; one that is misplaced stays the only problem, and what comes before it can be
  completed.
-/

namespace RealmBoot

namespace Lint

variable {mode : Mode} {p : Position} {brackets : List Opened} {c : Char} {cs : List Char}
  {s : State}

/-- A closing bracket is reported where none, or another one, is due. -/
def Issue.isMisplaced : Issue → Bool
  | .unexpected .. | .unmatched _ => true
  | _ => false

/-! ### What a character can do -/

/-- The check goes on, with a character at a given place. -/
def State.Viable (s : State) (p : Position) : Prop :=
  ∃ mode brackets, s = .reading mode p brackets ∧ mode.Sound ∧
    ∀ o ∈ brackets, isCloser o.closer = true

/-- The check has stopped at a closing bracket at a given place. -/
def State.StopsAt (s : State) (p : Position) : Prop :=
  ∃ issue : Issue, issue.isMisplaced = true ∧ s = .stopped ⟨p, issue⟩

/-- The start is viable. -/
theorem viable_start : State.start.Viable .start :=
  ⟨.code, [], rfl, trivial, by simp⟩

/-- In code every character keeps the scan viable or stops it where it stands. -/
theorem inCode_viable_or_stops (p : Position) (hbrackets : ∀ o ∈ brackets, isCloser o.closer = true)
    (c : Char) : (inCode p brackets c).Viable (p.after c) ∨ (inCode p brackets c).StopsAt p := by
  rcases char_cases c with rfl | hquote | ⟨closer, hopener⟩ | hcloser | ⟨hslash, hc⟩
  · exact .inl ⟨_, _, inCode_slash, trivial, hbrackets⟩
  · exact .inl ⟨_, _, inCode_quote hquote, hquote, hbrackets⟩
  · refine .inl ⟨_, _, inCode_opener hopener, trivial, ?_⟩
    rintro o (_ | ⟨_, ho⟩)
    · exact isCloser_of_closerOf? hopener
    · exact hbrackets o ho
  · rw [inCode_closer hcloser]
    cases brackets with
    | nil => exact .inr ⟨_, rfl, rfl⟩
    | cons top below =>
        dsimp only
        split_ifs with htop
        · exact .inl ⟨_, _, rfl, trivial, fun o ho => hbrackets o (.tail _ ho)⟩
        · exact .inr ⟨_, rfl, rfl⟩
  · exact .inl ⟨_, _, inCode_ordinary hslash hc, trivial, hbrackets⟩

/-- **One character leaves the check able to go on, or stops it where it stands.** -/
theorem State.Viable.step (hs : s.Viable p) (c : Char) :
    (s.step c).Viable (p.after c) ∨ (s.step c).StopsAt p := by
  obtain ⟨mode, brackets, rfl, hmode, hbrackets⟩ := hs
  cases mode with
  | code => exact inCode_viable_or_stops p hbrackets c
  | slash opened =>
      simp only [State.step, stepAt]
      split_ifs
      · exact .inl ⟨_, _, rfl, trivial, hbrackets⟩
      · exact .inl ⟨_, _, rfl, trivial, hbrackets⟩
      · exact inCode_viable_or_stops p hbrackets c
  | lineComment | blockComment opened | star opened =>
      simp only [State.step, stepAt]
      split_ifs <;> exact .inl ⟨_, _, rfl, trivial, hbrackets⟩
  | literal quote opened =>
      simp only [State.step, stepAt]
      split_ifs
      · exact .inl ⟨_, _, rfl, hmode, hbrackets⟩
      · exact .inl ⟨_, _, rfl, trivial, hbrackets⟩
      · exact .inl ⟨_, _, rfl, hmode, hbrackets⟩
  | escape quote opened => exact .inl ⟨_, _, rfl, hmode, hbrackets⟩

/-- **A text leaves the check able to go on, or one of its characters stops it.** The check could go
on before that character. -/
theorem viable_or_stops (hs : s.Viable p) (cs : List Char) :
    (s.run cs).Viable (p.along cs) ∨
      ∃ before found after, cs = before ++ found :: after ∧
        (s.run before).Viable (p.along before) ∧ (s.run cs).StopsAt (p.along before) := by
  induction cs generalizing s p with
  | nil => exact .inl hs
  | cons c cs ih =>
      rcases hs.step c with hgoes | ⟨issue, hissue, hstops⟩
      · rcases ih hgoes with hviable | ⟨before, found, after, rfl, hbefore, hstops⟩
        · exact .inl hviable
        · exact .inr ⟨c :: before, found, after, rfl, hbefore, hstops⟩
      · refine .inr ⟨[], c, cs, rfl, hs, issue, hissue, ?_⟩
        rw [State.run_cons, hstops, State.run_stopped, Position.along_nil]

/-! ### What completes a text -/

/-- What ends the comment or the literal that a text breaks off in. -/
def Mode.ending : Mode → List Char
  | .code => []
  | .slash _ => [' ']
  | .lineComment => ['\n']
  | .blockComment _ => ['*', '/']
  | .star _ => ['/']
  | .literal quote _ => [quote]
  | .escape quote _ => [quote, quote]

/-- The ending of a mode leads back to code, with the brackets that are open. -/
theorem run_ending (hmode : mode.Sound) :
    (State.reading mode p brackets).run mode.ending =
      .reading .code (p.along mode.ending) brackets := by
  cases mode with
  | literal quote opened | escape quote opened =>
      have hbackslash := isQuote_ne_backslash hmode
      simp only [Mode.ending, State.run, List.foldl_cons, List.foldl_nil, State.step, stepAt,
        if_neg hbackslash, if_true, Position.along_cons, Position.along_nil]
  | _ => rfl

/-- The brackets that are open are closed innermost first. -/
theorem run_closers (hbrackets : ∀ o ∈ brackets, isCloser o.closer = true) :
    ∃ p', (State.reading .code p brackets).run (brackets.map (·.closer)) =
      .reading .code p' [] := by
  induction brackets generalizing p with
  | nil => exact ⟨p, rfl⟩
  | cons top below ih =>
      obtain ⟨p', hp'⟩ := ih (p := p.after top.closer) fun o ho => hbrackets o (.tail _ ho)
      refine ⟨p', ?_⟩
      rw [← hp', List.map_cons, State.run_cons, State.step, stepAt,
        inCode_closer (hbrackets top (.head _))]
      dsimp only
      rw [if_pos rfl]

/-- **Where the check can go on, some text completes the definition.** The ending of the mode, the
closing brackets, and a character that is not blank so that the whole is not either. -/
theorem exists_completion {script : String} (h : (State.start.run script.toList).Viable p) :
    ∃ t, problems (script ++ t) = [] := by
  obtain ⟨mode, brackets, hrun, hmode, hbrackets⟩ := h
  obtain ⟨p', hclosed⟩ := run_closers (p := p.along mode.ending) hbrackets
  let missing := mode.ending ++ brackets.map (·.closer) ++ ['x']
  refine ⟨String.ofList missing, ?_⟩
  have hvisible : Text.isBlankText (script ++ String.ofList missing) = false := by
    rw [Text.isBlankText_append]
    simp [Text.isBlankText, missing, (by decide : Text.isBlank 'x' = false)]
  rw [problems_of_visible hvisible, State.verdict, String.toList_append, String.toList_ofList,
    State.run_append, State.run_append, State.run_append, hrun, run_ending hmode, hclosed]
  rfl

/-! ### What is reported -/

/-- At the end of a viable scan no bracket is misplaced. -/
theorem State.Viable.not_isMisplaced (hs : s.Viable p) :
    ∀ q ∈ s.atEnd, q.issue.isMisplaced = false := by
  obtain ⟨mode, brackets, rfl, -, -⟩ := hs
  intro q hq
  rcases List.mem_append.mp hq with hmode | hbrackets
  · cases mode with
    | code | slash opened | lineComment => cases hmode
    | blockComment opened | star opened | literal quote opened | escape quote opened =>
        obtain rfl := List.mem_singleton.mp hmode
        rfl
  · obtain ⟨o, -, rfl⟩ := List.mem_map.mp hbrackets
    rfl

/-- Blank characters leave the check in code. -/
theorem run_blanks (hblank : ∀ c ∈ cs, Text.isBlank c = true) :
    (State.reading .code p brackets).run cs = .reading .code (p.along cs) brackets := by
  induction cs generalizing p with
  | nil => rfl
  | cons c cs ih =>
      obtain ⟨hslash, hc⟩ := isOrdinary_of_isBlank (hblank c (.head _))
      rw [State.run_cons, State.step, stepAt, inCode_ordinary hslash hc,
        ih fun d hd => hblank d (.tail _ hd), Position.along_cons]

/-- **A definition can be gone on with, or it has one problem for good.** -/
theorem goes_on_or_stops (script : String) :
    (∃ p, (State.start.run script.toList).Viable p) ∧
        (∀ q ∈ problems script, q.issue.isMisplaced = false) ∨
      ∃ before after problem, script = before ++ after ∧
        problem.position = place before.toList ∧ problem.issue.isMisplaced = true ∧
        (State.start.run before.toList).Viable (place before.toList) ∧
        ∀ t, problems (script ++ t) = [problem] := by
  cases hblank : Text.isBlankText script with
  | true =>
      have hrun : State.start.run script.toList =
          .reading .code (Position.start.along script.toList) [] :=
        run_blanks (List.all_eq_true.mp hblank)
      refine .inl ⟨⟨_, .code, [], hrun, trivial, by simp⟩, ?_⟩
      rw [problems_of_blank hblank]
      rintro q (_ | ⟨_, hq⟩)
      · rfl
      · cases hq
  | false =>
      rcases viable_or_stops viable_start script.toList with
        hviable | ⟨before, found, after, htext, hbefore, issue, hissue, hstops⟩
      · refine .inl ⟨⟨_, hviable⟩, ?_⟩
        rw [problems_of_visible hblank]
        exact hviable.not_isMisplaced
      · rw [start_along] at hbefore hstops
        refine .inr ⟨String.ofList before, String.ofList (found :: after),
          ⟨place before, issue⟩, ?_, ?_, hissue, ?_, fun t => ?_⟩
        · rw [← String.ofList_append, ← htext, String.ofList_toList]
        · rw [String.toList_ofList]
        · rwa [String.toList_ofList]
        · have hvisible : Text.isBlankText (script ++ t) = false := by
            rw [Text.isBlankText_append, hblank, Bool.false_and]
          rw [problems_of_visible hvisible, State.verdict, String.toList_append, State.run_append,
            hstops]
          exact verdict_stopped _ _

/-- **The check refuses a definition early exactly if nothing can repair it.** Some text completes
the definition if and only if no closing bracket is reported as misplaced. Where one is, its report
is the only problem whatever follows, and the definition up to its place, which is a place in the
definition, can be completed. -/
theorem repairable_iff (script : String) :
    ((∃ t, problems (script ++ t) = []) ↔ ∀ q ∈ problems script, q.issue.isMisplaced = false) ∧
      ∀ problem ∈ problems script, problem.issue.isMisplaced = true →
        (∀ t, problems (script ++ t) = [problem]) ∧
        (∃ before after, script = before ++ after ∧ place before.toList = problem.position) ∧
        ∀ before after, script = before ++ after → place before.toList = problem.position →
          ∃ t, problems (before ++ t) = [] := by
  rcases goes_on_or_stops script with
    ⟨⟨p, hviable⟩, hnone⟩ | ⟨before, after, problem, hscript, hplace, hissue, hbefore, hstays⟩
  · refine ⟨⟨fun _ => hnone, fun _ => exists_completion hviable⟩, ?_⟩
    intro problem hproblem hissue
    rw [hnone problem hproblem] at hissue
    cases hissue
  · have hproblems : problems script = [problem] := by
      simpa using hstays ""
    refine ⟨⟨?_, ?_⟩, ?_⟩
    · rintro ⟨t, ht⟩
      rw [hstays t] at ht
      cases ht
    · intro hnone
      have hnot := hnone problem (by rw [hproblems]; exact .head _)
      rw [hissue] at hnot
      cases hnot
    · intro q hq _
      rw [hproblems, List.mem_singleton] at hq
      subst hq
      refine ⟨hstays, ⟨before, after, hscript, hplace.symm⟩, ?_⟩
      intro before' after' hscript' hplace'
      have hwhole : before.toList ++ after.toList = before'.toList ++ after'.toList := by
        rw [← String.toList_append, ← String.toList_append, ← hscript, ← hscript']
      have hsame := eq_of_place_eq hwhole (hplace.symm.trans hplace'.symm)
      rw [hsame] at hbefore
      exact exists_completion hbefore

/-- A definition in which a square bracket stands where a round one is due. -/
def strayBracket : String := "stage('x') \x7b\n  steps(]\n\x7d"

/-- Nothing repairs it, although what comes before the square bracket can be completed. -/
theorem repairable_strayBracket :
    problems strayBracket = [⟨⟨2, 9⟩, .unexpected ']' ')'⟩] ∧
      (∀ t, problems (strayBracket ++ t) = [⟨⟨2, 9⟩, .unexpected ']' ')'⟩]) ∧
      ∃ t, problems ("stage('x') \x7b\n  steps(" ++ t) = [] := by
  have hproblems : problems strayBracket = [⟨⟨2, 9⟩, .unexpected ']' ')'⟩] := by decide
  obtain ⟨hstays, -, hbefore⟩ := (repairable_iff strayBracket).2 ⟨⟨2, 9⟩, .unexpected ']' ')'⟩
    (by rw [hproblems]; exact .head _) rfl
  exact ⟨hproblems, hstays, hbefore "stage('x') \x7b\n  steps(" "]\n\x7d" (by decide) (by decide)⟩

end Lint

end RealmBoot
