import Mathlib.Data.List.DropRight
import RealmBoot.Pipeline.Lint

/-!
# Places in a Definition

The place of a character follows from that of the one before it: a line feed leads to the next line,
any other character to the next column. A reader of a report counts differently: the line feeds that
come before a character give its line, and the characters since the last line feed give its column.
This module proves that the two ways of counting agree, and that the places of a text are in the
order of its characters.

## Main results

* `start_along`: the place that is reached after some text is the one a reader counts.
* `precedes_along`: a place comes before every place that is reached from it.
* `eq_of_place_eq`: a place tells how much of a text comes before it.
-/

namespace RealmBoot

namespace Lint

/-- The place after a character. -/
def Position.after (p : Position) (c : Char) : Position :=
  if c = '\n' then ⟨p.line + 1, 1⟩ else ⟨p.line, p.column + 1⟩

variable {p q r : Position} {cs before before' after after' : List Char}

/-- The place after some characters. -/
def Position.along (p : Position) (cs : List Char) : Position := cs.foldl Position.after p

/-- An empty text leads nowhere else. -/
@[simp] theorem Position.along_nil (p : Position) : p.along [] = p := rfl

/-- A text leads along its first character and then along the others. -/
@[simp] theorem Position.along_cons (p : Position) (c : Char) (cs : List Char) :
    p.along (c :: cs) = (p.after c).along cs := rfl

/-- A text in two parts leads along the one and then along the other. -/
@[simp] theorem Position.along_append (p : Position) (a b : List Char) :
    p.along (a ++ b) = (p.along a).along b := List.foldl_append

/-! ### Counting lines and columns -/

/-- The place of a character, as counted in the text before it: one line more than there are line
feeds, and one column more than there are characters after the last of them. -/
def place (before : List Char) : Position :=
  ⟨1 + before.count '\n', 1 + (before.rtakeWhile (· ≠ '\n')).length⟩

/-- The place of the next character is that of the last one, moved on. -/
theorem place_concat (before : List Char) (c : Char) :
    place (before ++ [c]) = (place before).after c := by
  by_cases hc : c = '\n'
  · subst hc
    simp [place, Position.after, Nat.add_assoc]
  · have hcount : (before ++ [c]).count '\n' = before.count '\n' := by
      simp [List.count_append, hc]
    have hcolumn : (before ++ [c]).rtakeWhile (· ≠ '\n') =
        before.rtakeWhile (· ≠ '\n') ++ [c] := by
      rw [List.rtakeWhile_concat, if_pos (by simpa using hc)]
    rw [place, place, Position.after, if_neg hc, hcount, hcolumn, List.length_append,
      List.length_singleton, Nat.add_assoc]

/-- **Reading on keeps count as a reader does.** -/
theorem start_along (before : List Char) : Position.start.along before = place before := by
  induction before using List.reverseRecOn with
  | nil => rfl
  | append_singleton before c ih =>
      rw [Position.along_append, ih, place_concat]
      rfl

/-- The place behind a text in two parts is that behind the first, led along the second. -/
theorem place_append (a b : List Char) : place (a ++ b) = (place a).along b := by
  rw [← start_along, ← start_along, Position.along_append]

/-! ### The order of places -/

/-- A place comes before another one: in an earlier line, or earlier in the same line. -/
def Position.Precedes (p q : Position) : Prop :=
  p.line < q.line ∨ p.line = q.line ∧ p.column < q.column

/-- No position precedes itself. -/
theorem Position.not_precedes_self (p : Position) : ¬ p.Precedes p := by
  rintro (h | ⟨-, h⟩) <;> exact Nat.lt_irrefl _ h

/-- What precedes something precedes what follows that. -/
theorem Position.Precedes.trans (hpq : p.Precedes q) (hqr : q.Precedes r) : p.Precedes r := by
  unfold Position.Precedes at *
  omega

/-- A position precedes the one behind the next character. -/
theorem precedes_after (p : Position) (c : Char) : p.Precedes (p.after c) := by
  unfold Position.after
  split
  · exact .inl (Nat.lt_succ_self _)
  · exact .inr ⟨rfl, Nat.lt_succ_self _⟩

/-- What comes before a place comes before every later one. -/
theorem Position.Precedes.along (h : p.Precedes q) (cs : List Char) : p.Precedes (q.along cs) := by
  induction cs generalizing q with
  | nil => exact h
  | cons c cs ih => exact ih (h.trans (precedes_after q c))

/-- Reading at least one character moves the place on. -/
theorem precedes_along (p : Position) (hcs : cs ≠ []) : p.Precedes (p.along cs) := by
  obtain ⟨c, cs, rfl⟩ := List.exists_cons_of_ne_nil hcs
  exact (precedes_after p c).along cs

/-- Nothing is read between a place and itself. -/
theorem eq_nil_of_place_append_eq (h : place (before ++ cs) = place before) : cs = [] := by
  by_contra hcs
  have hless := precedes_along (place before) hcs
  rw [← place_append, h] at hless
  exact Position.not_precedes_self _ hless

/-- **A place tells what comes before it:** two beginnings of one text that end at the same place
are the same. -/
theorem eq_of_place_eq (htext : before ++ after = before' ++ after')
    (h : place before = place before') : before = before' := by
  rcases List.append_eq_append_iff.mp htext with ⟨rest, rfl, -⟩ | ⟨rest, rfl, -⟩
  · rw [eq_nil_of_place_append_eq h.symm, List.append_nil]
  · rw [eq_nil_of_place_append_eq h, List.append_nil]

end Lint

end RealmBoot
