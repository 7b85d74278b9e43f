import RealmBoot.Proofs.Completion

/-!
# Brackets in Brackets

Read by lexemes and brackets, a text is in code at one place after the other, and at each of them
some brackets are open. This module follows the check along these places. The brackets that it keeps
are those whose groups have not ended: each was opened in code, and between one and the next there
are only items.

`Reads` says what the check has kept when it comes to a place, starting with some brackets open.
What is shown of a run from no open brackets is thereby shown of a run inside a group as well.

## Main results

* `Reads.verdict_eq`: the check makes of a text what it makes of what is left of it.
* `Reads.above`: the brackets kept are nested in the text, unless a group that was open at the
  beginning has ended.
* `Reads.stacked`: an inner bracket comes after the outer ones.
* `exists_last`: the check comes to the end of the text, or to where it knows what is wrong.
-/

namespace RealmBoot

namespace Lint

variable {p : Position} {base now : List Opened} {text passed rest rest' cs : List Char}
  {c found : Char}

/-! ### Places in code -/

/-- What is left of a text starts in code: the text before it consists of lexemes and of single
brackets. -/
inductive InCode (text : List Char) : List Char → Prop
  | start : InCode text text
  | lexeme {lexeme rest : List Char} :
      InCode text (lexeme ++ rest) → Lexeme lexeme rest → InCode text rest
  | opener {c closer : Char} {rest : List Char} :
      InCode text (c :: rest) → closerOf? c = some closer → InCode text rest
  | closer {c : Char} {rest : List Char} :
      InCode text (c :: rest) → isCloser c = true → InCode text rest

/-- The brackets open where something is left of a text, when it is read from `p` on: before,
between and after them there are only items. -/
inductive Nested (p : Position) (text : List Char) : List Opened → List Char → Prop
  | items {rest : List Char} : Passage text rest → Nested p text [] rest
  | bracket {o : Opened} {below : List Opened} {before inside rest : List Char} :
      text = before ++ o.bracket :: inside → o.position = p.along before →
      closerOf? o.bracket = some o.closer → InCode text (o.bracket :: inside) →
      Nested p text below (o.bracket :: inside) → Passage inside rest →
        Nested p text (o :: below) rest

/-- More items leave the same brackets open. -/
theorem Nested.passage (h : Nested p text now rest) (hrest : Passage rest rest') :
    Nested p text now rest' := by
  cases h with
  | items hpassage => exact .items (hpassage.trans hrest)
  | bracket htext hposition hcloser hcode hbelow hinside =>
      exact .bracket htext hposition hcloser hcode hbelow (hinside.trans hrest)

/-- The closer that is due ends the innermost group. -/
theorem Nested.close {o : Opened} (h : Nested p text (o :: now) (o.closer :: rest)) :
    Nested p text now rest := by
  cases h with
  | bracket _ _ hcloser _ hbelow hinside =>
      exact hbelow.passage (.group hcloser hinside (.done rest))

/-- Where an open bracket is. -/
theorem Nested.exists_of_mem {o : Opened} (h : Nested p text now rest) (ho : o ∈ now) :
    ∃ before inside, text = before ++ o.bracket :: inside ∧ o.position = p.along before ∧
      closerOf? o.bracket = some o.closer ∧ InCode text (o.bracket :: inside) := by
  induction h with
  | items _ => cases ho
  | @bracket top below before inside rest htext hposition hcloser hcode _ _ ih =>
      rcases List.mem_cons.mp ho with rfl | ho
      · exact ⟨before, inside, htext, hposition, hcloser, hcode⟩
      · exact ih ho

/-! ### The course of the check -/

/-- The check reads a text from the place `p` on, with the brackets of `base` open. It has passed
some of the text and keeps the brackets of `now`, and the rest is left. -/
inductive Reads (p : Position) (base : List Opened) (text : List Char) :
    (passed : List Char) → (now : List Opened) → (rest : List Char) → Prop
  | start : Reads p base text [] base text
  | lexeme {passed lexeme rest : List Char} {now : List Opened} :
      Reads p base text passed now (lexeme ++ rest) → Lexeme lexeme rest →
        Reads p base text (passed ++ lexeme) now rest
  | opener {passed rest : List Char} {now : List Opened} {c closer : Char} :
      Reads p base text passed now (c :: rest) → closerOf? c = some closer →
        Reads p base text (passed ++ [c]) (⟨c, closer, p.along passed⟩ :: now) rest
  | closer {passed rest : List Char} {now : List Opened} {top : Opened} :
      Reads p base text passed (top :: now) (top.closer :: rest) → isCloser top.closer = true →
        Reads p base text (passed ++ [top.closer]) now rest

/-- What was read and what is left make up the text. -/
theorem Reads.text_eq (h : Reads p base text passed now rest) : text = passed ++ rest := by
  induction h with
  | start => rfl
  | lexeme _ _ ih => rw [ih, List.append_assoc]
  | opener _ _ ih => rw [ih, List.append_assoc, List.singleton_append]
  | closer _ _ ih => rw [ih, List.append_assoc, List.singleton_append]

/-- What is left is read as code. -/
theorem Reads.inCode (h : Reads p base text passed now rest) : InCode text rest := by
  induction h with
  | start => exact .start
  | lexeme _ hlexeme ih => exact ih.lexeme hlexeme
  | opener _ hcloser ih => exact ih.opener hcloser
  | closer _ hcloser ih => exact ih.closer hcloser

/-- **What is wrong with a text is what is wrong with the rest of it,** from where the check is. -/
theorem Reads.verdict_eq (h : Reads p base text passed now rest) :
    (State.reading .code p base).verdict text =
      (State.reading .code (p.along passed) now).verdict rest := by
  induction h with
  | start => rfl
  | lexeme _ hlexeme ih => rw [ih, hlexeme.verdict_eq, Position.along_append]
  | opener _ hcloser ih => rw [ih, verdict_opener hcloser, Position.along_append]; rfl
  | closer _ hcloser ih => rw [ih, verdict_closer _ hcloser, Position.along_append]; rfl

/-- The same for the whole of a definition. -/
theorem Reads.verdict_start (h : Reads .start [] text passed now rest) :
    State.start.verdict text = (State.reading .code (place passed) now).verdict rest := by
  rw [← start_along]
  exact h.verdict_eq

/-- The brackets kept are nested in the text on top of those open at the beginning, unless the group
of the innermost of these has ended. -/
theorem Reads.above (h : Reads p base text passed now rest) :
    (∃ above, now = above ++ base ∧ Nested p text above rest) ∨
      ∃ o below rest', base = o :: below ∧ Passage text (o.closer :: rest') := by
  induction h with
  | start => exact .inl ⟨[], rfl, .items (.done text)⟩
  | lexeme _ hlexeme ih =>
      rcases ih with ⟨above, rfl, hnested⟩ | hended
      · exact .inl ⟨above, rfl, hnested.passage (hlexeme.passage (.done _))⟩
      · exact .inr hended
  | opener hreads hcloser ih =>
      rcases ih with ⟨above, rfl, hnested⟩ | hended
      · exact .inl ⟨_ :: above, rfl, .bracket hreads.text_eq rfl hcloser hreads.inCode hnested
          (.done _)⟩
      · exact .inr hended
  | closer _ _ ih =>
      rcases ih with ⟨above, habove, hnested⟩ | hended
      · cases above with
        | nil =>
            cases hnested with
            | items hpassage => exact .inr ⟨_, _, _, habove.symm, hpassage⟩
        | cons o above =>
            obtain ⟨rfl, rfl⟩ := List.cons.inj habove
            exact .inl ⟨above, rfl, hnested.close⟩
      · exact .inr hended

/-- Without open brackets at the beginning, those kept are nested in the text. -/
theorem Reads.nested (h : Reads p [] text passed now rest) : Nested p text now rest := by
  rcases h.above with ⟨above, rfl, hnested⟩ | ⟨o, below, rest', hbase, -⟩
  · rwa [List.append_nil]
  · cases hbase

/-- A bracket kept was open at the beginning, or was opened since. -/
theorem Reads.mem_now (h : Reads p base text passed now rest) {o : Opened} (ho : o ∈ now) :
    o ∈ base ∨ ∃ before, o.position = p.along before := by
  induction h with
  | start => exact .inl ho
  | lexeme _ _ ih => exact ih ho
  | @opener passed _ _ _ _ _ _ ih =>
      rcases List.mem_cons.mp ho with rfl | ho
      · exact .inr ⟨passed, rfl⟩
      · exact ih ho
  | closer _ _ ih => exact ih (.tail _ ho)

/-- The places of open brackets: each inner one comes after the outer ones, and all come before what
is read next. -/
def Stacked (p : Position) (brackets : List Opened) : Prop :=
  (brackets.Pairwise fun inner outer => outer.position.Precedes inner.position) ∧
    ∀ o ∈ brackets, o.position.Precedes p

/-- Brackets that are kept stand in their order. -/
theorem Reads.stacked (hbase : Stacked p base) (h : Reads p base text passed now rest) :
    Stacked (p.along passed) now := by
  induction h with
  | start => exact hbase
  | lexeme _ _ ih =>
      rw [Position.along_append]
      exact ⟨ih.1, fun o ho => (ih.2 o ho).along _⟩
  | opener _ _ ih =>
      rw [Position.along_append]
      refine ⟨List.pairwise_cons.mpr ⟨ih.2, ih.1⟩, ?_⟩
      rintro o (_ | ⟨_, ho⟩)
      · exact precedes_along _ (List.cons_ne_nil _ _)
      · exact (ih.2 o ho).along _
  | closer _ _ ih =>
      rw [Position.along_append]
      exact ⟨(List.pairwise_cons.mp ih.1).2, fun o ho => (ih.2 o (.tail _ ho)).along _⟩

/-- A sequence of items leaves the check with the brackets that it kept before. -/
theorem Reads.passage (h : Reads p base text passed now rest) (hrest : Passage rest rest') :
    ∃ more, Reads p base text (passed ++ more) now rest' := by
  induction hrest using Passage.induction_lexeme generalizing passed now with
  | done rest => exact ⟨[], by rwa [List.append_nil]⟩
  | @lexeme lexeme rest rest' hlexeme _ ih =>
      obtain ⟨more, hmore⟩ := ih (h.lexeme hlexeme)
      exact ⟨lexeme ++ more, by rwa [← List.append_assoc]⟩
  | @group opener closer inside rest rest' hopener _ _ ihinside ih =>
      obtain ⟨group, hgroup⟩ := ihinside (h.opener hopener)
      obtain ⟨more, hmore⟩ := ih (hgroup.closer (isCloser_of_closerOf? hopener))
      refine ⟨[opener] ++ group ++ [closer] ++ more, ?_⟩
      simpa only [List.append_assoc] using hmore

/-! ### Where the check ends -/

/-- What is left of a text tells what is wrong: nothing is left, or what it starts with does not
end, or it starts with a closing bracket that is not due. -/
inductive Last (now : List Opened) : List Char → Prop
  | finished : Last now []
  | unended {rest : List Char} {issue : Issue} : Unended rest issue → Last now rest
  | misplaced {found : Char} {after : List Char} :
      isCloser found = true → (∀ top ∈ now.head?, top.closer ≠ found) → Last now (found :: after)

/-- **The check comes to where it knows what is wrong,** at the end of the text at the latest. -/
theorem Reads.exists_last (h : Reads p base text passed now rest) :
    ∃ passed now rest, Reads p base text passed now rest ∧ Last now rest := by
  induction hlength : rest.length using Nat.strongRecOn generalizing passed now rest with
  | ind n ih =>
      subst hlength
      cases rest with
      | nil => exact ⟨passed, now, [], h, .finished⟩
      | cons c cs =>
          cases hopener : closerOf? c with
          | some closer => exact ih cs.length (Nat.lt_succ_self _) (h.opener hopener) rfl
          | none =>
              cases hcloser : isCloser c with
              | true =>
                  by_cases hdue : ∀ top ∈ now.head?, top.closer ≠ c
                  · exact ⟨passed, now, c :: cs, h, .misplaced hcloser hdue⟩
                  · push Not at hdue
                    obtain ⟨top, htop, rfl⟩ := hdue
                    obtain ⟨below, rfl⟩ : ∃ below, now = top :: below :=
                      List.head?_eq_some_iff.mp htop
                    exact ih cs.length (Nat.lt_succ_self _) (h.closer hcloser) rfl
              | false =>
                  rcases exists_lexeme hopener hcloser cs with
                    ⟨lexeme, rest, htext, hlexeme⟩ | ⟨issue, hunended⟩
                  · have hshorter : rest.length < (c :: cs).length := by
                      have hpos := List.length_pos_of_ne_nil hlexeme.ne_nil
                      rw [htext, List.length_append]
                      omega
                    rw [htext] at h
                    exact ih rest.length hshorter (h.lexeme hlexeme) rfl
                  · exact ⟨passed, now, c :: cs, h, .unended hunended⟩

/-- A closing bracket that is not due is the only problem. -/
theorem verdict_misplaced (p : Position) (cs : List Char) (hcloser : isCloser found = true)
    (hdue : ∀ top ∈ now.head?, top.closer ≠ found) :
    ∃ issue : Issue, issue.isMisplaced = true ∧
      (State.reading .code p now).verdict (found :: cs) = [⟨p, issue⟩] := by
  cases now with
  | nil => exact ⟨_, rfl, verdict_unmatched hcloser⟩
  | cons top below => exact ⟨_, rfl, verdict_unexpected hcloser (hdue top rfl)⟩

/-- If no closing bracket is misplaced, one that the check comes to is due. -/
theorem Reads.exists_due (h : Reads p base text passed now (found :: rest))
    (hcloser : isCloser found = true)
    (hnone : ∀ q ∈ (State.reading .code p base).verdict text, q.issue.isMisplaced = false) :
    ∃ top below, now = top :: below ∧ top.closer = found := by
  by_contra hdue
  have hother : ∀ top ∈ now.head?, top.closer ≠ found := by
    intro top htop heq
    obtain ⟨below, hnow⟩ := List.head?_eq_some_iff.mp htop
    exact hdue ⟨top, below, hnow, heq⟩
  obtain ⟨issue, hissue, hverdict⟩ := verdict_misplaced (p.along passed) rest hcloser hother
  have hnot := hnone ⟨p.along passed, issue⟩ (by
    rw [h.verdict_eq, hverdict]
    exact .head _)
  rw [hissue] at hnot
  cases hnot

/-- If no closing bracket is misplaced, the check comes to every place in code. -/
theorem InCode.exists_reads (h : InCode text rest)
    (hnone : ∀ q ∈ (State.reading .code p base).verdict text, q.issue.isMisplaced = false) :
    ∃ passed now, Reads p base text passed now rest := by
  induction h with
  | start => exact ⟨[], base, .start⟩
  | lexeme _ hlexeme ih =>
      obtain ⟨passed, now, hreads⟩ := ih
      exact ⟨_, _, hreads.lexeme hlexeme⟩
  | opener _ hcloser ih =>
      obtain ⟨passed, now, hreads⟩ := ih
      exact ⟨_, _, hreads.opener hcloser⟩
  | closer _ hcloser ih =>
      obtain ⟨passed, now, hreads⟩ := ih
      obtain ⟨top, below, rfl, rfl⟩ := hreads.exists_due hcloser hnone
      exact ⟨_, _, hreads.closer hcloser⟩

end Lint

end RealmBoot
