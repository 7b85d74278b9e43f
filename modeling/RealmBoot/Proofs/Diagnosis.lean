import RealmBoot.Proofs.Nesting

/-!
# What a Report Says

The check reports what it has kept when it ends. This module says, without the check, what there is
to report: a comment or a literal in which the text ends, a bracket in code whose group does not
end, or a closing bracket where none, or another one, is due. And it says where: the place that is
given is the one a reader finds by counting lines and columns up to the character in question.

## Main results

* `endsInside_iff`, `unclosed_iff`: if no closing bracket is misplaced, the problems reported are
  those of the text.
* `located_of_mem`: every problem is reported at the place of the character that it is about, and a
  misplaced bracket with the bracket that is due.
* `report_describes`: what the report of a definition is, as a list.
-/

namespace RealmBoot

namespace Lint

variable {p : Position} {base now : List Opened} {text passed rest : List Char} {q : Problem}
  {issue : Issue}

/-! ### What there is to report -/

/-- The text ends inside a comment or a literal, at the place of the character that opened it. -/
def EndsInside (text : List Char) (q : Problem) : Prop :=
  ∃ before rest issue, text = before ++ rest ∧ InCode text rest ∧ Unended rest issue ∧
    q = ⟨place before, issue⟩

/-- A bracket in code has no matching one: none of the closers that go with it stands where only
items come between. -/
def Unclosed (text : List Char) (q : Problem) : Prop :=
  ∃ before opener closer inside, text = before ++ opener :: inside ∧
    InCode text (opener :: inside) ∧ closerOf? opener = some closer ∧
    (∀ rest, ¬ Passage inside (closer :: rest)) ∧ q = ⟨place before, .neverClosed opener⟩

/-- A closing bracket in code is not the one that is due. -/
inductive Misplaced (text : List Char) : Problem → Prop
  /-- No bracket is open: only items come before it. -/
  | unmatched {before after : List Char} {found : Char} :
      text = before ++ found :: after → isCloser found = true → Passage text (found :: after) →
        Misplaced text ⟨place before, .unmatched found⟩
  /-- Only items come between the innermost open bracket and it, and the closer of that bracket is
  another one. -/
  | unexpected {before after inside : List Char} {found opener expected : Char} :
      text = before ++ found :: after → isCloser found = true →
      InCode text (opener :: inside) → closerOf? opener = some expected →
      Passage inside (found :: after) → expected ≠ found →
        Misplaced text ⟨place before, .unexpected found expected⟩

/-- Which character an issue is about. -/
def Issue.Concerns : Issue → Char → Prop
  | .empty, _ => False
  | .unexpected found _, c => c = found
  | .unmatched found, c => c = found
  | .openComment, c => c = '/'
  | .openLiteral, c => isQuote c = true
  | .neverClosed opened, c => c = opened

/-! ### Kinds of issues -/

/-- What is unended is a comment or a literal. -/
theorem Unended.issue_eq (h : Unended rest issue) :
    issue = .openComment ∨ issue = .openLiteral := by
  cases h with
  | comment _ => exact .inl rfl
  | literal _ _ => exact .inr rfl

/-- It is reported by its first character. -/
theorem Unended.concerns (h : Unended rest issue) :
    ∃ c after, rest = c :: after ∧ issue.Concerns c := by
  cases h with
  | comment _ => exact ⟨_, _, rfl, rfl⟩
  | literal hquote _ => exact ⟨_, _, rfl, hquote⟩

/-- Each of the open brackets is reported as never closed, where it stands. -/
theorem mem_neverClosed :
    q ∈ neverClosed now ↔ ∃ o ∈ now, q = ⟨o.position, .neverClosed o.bracket⟩ := by
  simp only [neverClosed, List.mem_map, List.mem_reverse, eq_comm]

/-! ### How the check ends -/

/-- The check of a text without misplaced brackets has come to its last place in code. What is wrong
is what the rest of the text begins with, if that does not end, and then the brackets kept. -/
structure Ended (p : Position) (base : List Opened) (text passed : List Char) (now : List Opened)
    (rest : List Char) (ending : List Problem) : Prop where
  reads : Reads p base text passed now rest
  verdict_eq : (State.reading .code p base).verdict text = ending ++ neverClosed now
  ending_eq : ending = [] ∨ ∃ issue, Unended rest issue ∧ ending = [⟨p.along passed, issue⟩]

variable {ending : List Problem}

/-- If nothing is misplaced, the scan comes to an end in one of the ways there are. -/
theorem exists_ended (p : Position) (base : List Opened) (text : List Char)
    (hnone : ∀ q ∈ (State.reading .code p base).verdict text, q.issue.isMisplaced = false) :
    ∃ passed now rest ending, Ended p base text passed now rest ending := by
  have hstart : Reads p base text [] base text := .start
  obtain ⟨passed, now, rest, hreads, hlast⟩ := hstart.exists_last
  cases hlast with
  | finished => exact ⟨passed, now, [], [], hreads, hreads.verdict_eq, .inl rfl⟩
  | unended hunended =>
      exact ⟨passed, now, rest, _, hreads, hreads.verdict_eq.trans (hunended.verdict_eq _ _),
        .inr ⟨_, hunended, rfl⟩⟩
  | misplaced hcloser hdue =>
      obtain ⟨top, below, rfl, htop⟩ := hreads.exists_due hcloser hnone
      exact absurd htop (hdue top rfl)

/-- What is reported of the ending is a comment or a literal. -/
theorem Ended.issue_of_mem (h : Ended p base text passed now rest ending) (hq : q ∈ ending) :
    q.issue = .openComment ∨ q.issue = .openLiteral := by
  rcases h.ending_eq with rfl | ⟨issue, hunended, rfl⟩
  · cases hq
  · rw [List.mem_singleton.mp hq]
    exact hunended.issue_eq

/-- The problems of the ending are told from the others by their issues. -/
theorem Ended.mem_ending_iff (h : Ended p base text passed now rest ending) :
    q ∈ ending ↔ q ∈ (State.reading .code p base).verdict text ∧
      (q.issue = .openComment ∨ q.issue = .openLiteral) := by
  rw [h.verdict_eq, List.mem_append]
  constructor
  · intro hq
    exact ⟨.inl hq, h.issue_of_mem hq⟩
  · rintro ⟨hq | hq, hissue⟩
    · exact hq
    · obtain ⟨o, -, rfl⟩ := mem_neverClosed.mp hq
      rcases hissue with hissue | hissue <;> cases hissue

/-- So are those about brackets. -/
theorem Ended.mem_neverClosed_iff (h : Ended p base text passed now rest ending) :
    q ∈ neverClosed now ↔ q ∈ (State.reading .code p base).verdict text ∧
      ∃ opened, q.issue = .neverClosed opened := by
  rw [h.verdict_eq, List.mem_append]
  constructor
  · intro hq
    obtain ⟨o, -, rfl⟩ := mem_neverClosed.mp hq
    exact ⟨.inr hq, _, rfl⟩
  · rintro ⟨hq | hq, opened, hissue⟩
    · rcases h.issue_of_mem hq with hopen | hopen <;> rw [hissue] at hopen <;> cases hopen
    · exact hq

/-! ### Reports without a misplaced bracket -/

section

variable (hnone : ∀ q ∈ State.start.verdict text, q.issue.isMisplaced = false)

include hnone

/-- The check comes to every place in code, with the text before that place passed. -/
theorem reads_of_inCode {before : List Char} (htext : text = before ++ rest)
    (hcode : InCode text rest) : ∃ now, Reads .start [] text before now rest := by
  obtain ⟨passed, now, hreads⟩ := hcode.exists_reads hnone
  have hpassed : passed = before := List.append_cancel_right (hreads.text_eq.symm.trans htext)
  exact ⟨now, hpassed ▸ hreads⟩

/-- **The comments and literals reported are those that the text ends in.** -/
theorem endsInside_iff :
    EndsInside text q ↔
      q ∈ State.start.verdict text ∧ (q.issue = .openComment ∨ q.issue = .openLiteral) := by
  constructor
  · rintro ⟨before, rest, issue, htext, hcode, hunended, rfl⟩
    obtain ⟨now, hreads⟩ := reads_of_inCode hnone htext hcode
    refine ⟨?_, hunended.issue_eq⟩
    rw [hreads.verdict_start, hunended.verdict_eq]
    exact .head _
  · intro hq
    obtain ⟨passed, now, rest, ending, hended⟩ := exists_ended .start [] text hnone
    have hmem : q ∈ ending := hended.mem_ending_iff.mpr hq
    rcases hended.ending_eq with rfl | ⟨issue, hunended, rfl⟩
    · cases hmem
    · rw [List.mem_singleton, start_along] at hmem
      exact ⟨passed, rest, issue, hended.reads.text_eq, hended.reads.inCode, hunended, hmem⟩

/-- A bracket without a matching one is kept to the end. From behind it on, it is one of those that
are open at the beginning. -/
theorem mem_verdict_of_unclosed (h : Unclosed text q) : q ∈ State.start.verdict text := by
  obtain ⟨before, opener, closer, inside, htext, hcode, hopener, hopen, rfl⟩ := h
  obtain ⟨outer, houter⟩ := reads_of_inCode hnone htext hcode
  have hverdict := (houter.opener hopener).verdict_start
  obtain ⟨passed, now, rest, ending, hended⟩ := exists_ended _ _ inside (hverdict ▸ hnone)
  rw [hverdict, hended.verdict_eq]
  refine List.mem_append_right _ (mem_neverClosed.mpr
    ⟨⟨opener, closer, Position.start.along before⟩, ?_, ?_⟩)
  · rcases hended.reads.above with ⟨above, rfl, -⟩ | ⟨o, below, rest', hbase, hclosed⟩
    · exact List.mem_append_right _ (.head _)
    · obtain ⟨rfl, rfl⟩ := List.cons.inj hbase
      exact absurd hclosed (hopen rest')
  · rw [start_along]

/-- A bracket that is never closed was open at the beginning, or comes after it. -/
theorem position_of_neverClosed {opened : Char} (hreads : Reads .start [] text passed now rest)
    (hq : q ∈ State.start.verdict text) (hissue : q.issue = .neverClosed opened) :
    (∃ o ∈ now, q.position = o.position) ∨ ∃ later, q.position = place (passed ++ later) := by
  have hverdict := hreads.verdict_start
  obtain ⟨passed', now', rest', ending, hended⟩ := exists_ended _ _ rest (hverdict ▸ hnone)
  rw [hverdict] at hq
  obtain ⟨o, ho, rfl⟩ := mem_neverClosed.mp (hended.mem_neverClosed_iff.mpr ⟨hq, opened, hissue⟩)
  rcases hended.reads.mem_now ho with hbase | ⟨before, hbefore⟩
  · exact .inl ⟨o, hbase, rfl⟩
  · exact .inr ⟨before, by rw [place_append, ← hbefore]⟩

/-- A bracket that is kept to the end has no matching one: once its group has ended, only brackets
before and after it can be kept. -/
theorem unclosed_of_mem_verdict {opened : Char} (hq : q ∈ State.start.verdict text)
    (hissue : q.issue = .neverClosed opened) : Unclosed text q := by
  obtain ⟨passed, now, rest, ending, hended⟩ := exists_ended .start [] text hnone
  obtain ⟨o, ho, rfl⟩ := mem_neverClosed.mp (hended.mem_neverClosed_iff.mpr ⟨hq, opened, hissue⟩)
  obtain ⟨before, inside, htext, hposition, hcloser, hcode⟩ :=
    hended.reads.nested.exists_of_mem ho
  rw [start_along] at hposition
  refine ⟨before, o.bracket, o.closer, inside, htext, hcode, hcloser, ?_, ?_⟩
  · intro rest hclosed
    obtain ⟨outer, houter⟩ := reads_of_inCode hnone htext hcode
    have hearlier := (houter.stacked ⟨.nil, by simp⟩).2
    rw [start_along] at hearlier
    obtain ⟨group, hgroup⟩ := (houter.opener hcloser).passage hclosed
    have hafter := hgroup.closer (isCloser_of_closerOf? hcloser)
    rcases position_of_neverClosed hnone hafter hq rfl with ⟨o', ho', hsame⟩ | ⟨later, hlater⟩
    · have hless := hearlier o' ho'
      rw [← hsame, hposition] at hless
      exact Position.not_precedes_self _ hless
    · rw [show o.position = _ from hlater, List.append_assoc, List.append_assoc,
        List.append_assoc] at hposition
      exact absurd (eq_nil_of_place_append_eq hposition) (by simp)
  · rw [← hposition]

/-- **The brackets reported as never closed are those without a matching one.** -/
theorem unclosed_iff :
    Unclosed text q ↔
      q ∈ State.start.verdict text ∧ ∃ opened, q.issue = .neverClosed opened := by
  constructor
  · intro h
    refine ⟨mem_verdict_of_unclosed hnone h, ?_⟩
    obtain ⟨before, opener, closer, inside, -, -, -, -, rfl⟩ := h
    exact ⟨opener, rfl⟩
  · rintro ⟨hq, opened, hissue⟩
    exact unclosed_of_mem_verdict hnone hq hissue

end

/-! ### The report of a definition -/

/-- Brackets that are nested are reported in the order of their places. -/
theorem pairwise_neverClosed (h : Stacked p now) :
    (neverClosed now).Pairwise fun q r => q.position.Precedes r.position := by
  rw [neverClosed, List.pairwise_map, List.pairwise_reverse]
  exact h.1

/-- **A problem is reported at the place of the character that it is about.** A misplaced bracket is
reported with the one that is due. -/
theorem located_of_mem (hq : q ∈ State.start.verdict text) :
    (∃ before c after, text = before ++ c :: after ∧ q.issue.Concerns c ∧
      q.position = place before) ∧ (q.issue.isMisplaced = true → Misplaced text q) := by
  have hstart : Reads .start [] text [] [] text := .start
  obtain ⟨passed, now, rest, hreads, hlast⟩ := hstart.exists_last
  have hkept : ∀ q ∈ neverClosed now, (∃ before c after, text = before ++ c :: after ∧
      q.issue.Concerns c ∧ q.position = place before) ∧
      (q.issue.isMisplaced = true → Misplaced text q) := by
    intro q hq
    obtain ⟨o, ho, rfl⟩ := mem_neverClosed.mp hq
    obtain ⟨before, inside, htext, hposition, -, -⟩ := hreads.nested.exists_of_mem ho
    refine ⟨⟨before, o.bracket, inside, htext, rfl, ?_⟩, fun h => nomatch h⟩
    rw [← start_along, ← hposition]
  rw [hreads.verdict_start] at hq
  cases hlast with
  | finished => exact hkept q hq
  | unended hunended =>
      rw [hunended.verdict_eq] at hq
      rcases List.mem_cons.mp hq with rfl | hq
      · obtain ⟨c, after, rfl, hconcerns⟩ := hunended.concerns
        refine ⟨⟨passed, c, after, hreads.text_eq, hconcerns, rfl⟩, ?_⟩
        rcases hunended.issue_eq with rfl | rfl <;> exact fun h => nomatch h
      · exact hkept q hq
  | @misplaced found after hcloser hdue =>
      cases now with
      | nil =>
          rw [verdict_unmatched hcloser, List.mem_singleton] at hq
          subst hq
          refine ⟨⟨passed, found, after, hreads.text_eq, rfl, rfl⟩, fun _ => ?_⟩
          cases hreads.nested with
          | items hpassage => exact .unmatched hreads.text_eq hcloser hpassage
      | cons top below =>
          have htop : top.closer ≠ found := hdue top rfl
          rw [verdict_unexpected hcloser htop, List.mem_singleton] at hq
          subst hq
          refine ⟨⟨passed, found, after, hreads.text_eq, rfl, rfl⟩, fun _ => ?_⟩
          cases hreads.nested with
          | bracket _ _ hopener hcode _ hinside =>
              exact .unexpected hreads.text_eq hcloser hcode hopener hinside htop

/-- **What the report of a definition says.** If no closing bracket is misplaced, it begins with the
comment or the literal that the definition ends in, if it ends in one, and goes on with the brackets
that have no matching one, in the order of their places. Every problem of a report is at the place
of the character that it is about, and a misplaced closing bracket is reported with the one that is
due. -/
theorem report_describes (script : String) (hvisible : Text.isBlankText script = false) :
    ((∀ q ∈ problems script, q.issue.isMisplaced = false) →
      ∃ ending unclosed, problems script = ending ++ unclosed ∧ ending.length ≤ 1 ∧
        (∀ q, q ∈ ending ↔ EndsInside script.toList q) ∧
        (∀ q, q ∈ unclosed ↔ Unclosed script.toList q) ∧
        unclosed.Pairwise fun q r => q.position.Precedes r.position) ∧
      ∀ q ∈ problems script,
        (∃ before c after, script.toList = before ++ c :: after ∧ q.issue.Concerns c ∧
          q.position = place before) ∧
        (q.issue.isMisplaced = true → Misplaced script.toList q) := by
  rw [problems_of_visible hvisible]
  refine ⟨fun hnone => ?_, fun q hq => located_of_mem hq⟩
  obtain ⟨passed, now, rest, ending, hended⟩ := exists_ended .start [] script.toList hnone
  refine ⟨ending, neverClosed now, hended.verdict_eq, ?_, fun q => ?_, fun q => ?_, ?_⟩
  · rcases hended.ending_eq with rfl | ⟨issue, -, rfl⟩
    · exact Nat.zero_le 1
    · exact Nat.le_refl 1
  · exact hended.mem_ending_iff.trans (endsInside_iff hnone).symm
  · exact hended.mem_neverClosed_iff.trans (unclosed_iff hnone).symm
  · exact pairwise_neverClosed (hended.reads.stacked ⟨.nil, by simp⟩)

/-- A definition that breaks off in a comment, with brackets open in two lines. -/
def brokenOff : String := "node \x7b sh()\n  steps(['a', \"]\"\n  /* ( ]"

/-- It is reported with the comment first, and the brackets in the comment and in the literal are
not counted. -/
theorem report_describes_brokenOff :
    Text.isBlankText brokenOff = false ∧
      problems brokenOff = [⟨⟨3, 3⟩, .openComment⟩, ⟨⟨1, 6⟩, .neverClosed '\x7b'⟩,
        ⟨⟨2, 8⟩, .neverClosed '('⟩, ⟨⟨2, 9⟩, .neverClosed '['⟩] ∧
      EndsInside brokenOff.toList ⟨⟨3, 3⟩, .openComment⟩ ∧
      Unclosed brokenOff.toList ⟨⟨2, 9⟩, .neverClosed '['⟩ := by
  have hvisible : Text.isBlankText brokenOff = false := by decide
  have hproblems : problems brokenOff = [⟨⟨3, 3⟩, .openComment⟩, ⟨⟨1, 6⟩, .neverClosed '\x7b'⟩,
      ⟨⟨2, 8⟩, .neverClosed '('⟩, ⟨⟨2, 9⟩, .neverClosed '['⟩] := by decide
  have hnone : ∀ q ∈ problems brokenOff, q.issue.isMisplaced = false := by
    rw [hproblems]
    decide
  obtain ⟨ending, unclosed, hreport, -, hending, hunclosed, -⟩ :=
    (report_describes brokenOff hvisible).1 hnone
  rw [hproblems] at hreport
  refine ⟨hvisible, hproblems, ?_, ?_⟩
  · have hmem : (⟨⟨3, 3⟩, .openComment⟩ : Problem) ∈ ending ++ unclosed := by
      rw [← hreport]
      decide
    rcases List.mem_append.mp hmem with h | h
    · exact (hending _).mp h
    · obtain ⟨_, _, _, _, -, -, -, -, hq⟩ := (hunclosed _).mp h
      exact nomatch congrArg Problem.issue hq
  · have hmem : (⟨⟨2, 9⟩, .neverClosed '['⟩ : Problem) ∈ ending ++ unclosed := by
      rw [← hreport]
      decide
    rcases List.mem_append.mp hmem with h | h
    · obtain ⟨_, _, issue, -, -, hopen, hq⟩ := (hending _).mp h
      have hissue : issue = .neverClosed '[' := (congrArg Problem.issue hq).symm
      rcases hopen.issue_eq with rfl | rfl <;> cases hissue
    · exact (hunclosed _).mp h

end Lint

end RealmBoot
