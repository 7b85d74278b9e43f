import Mathlib.Data.List.TakeWhile
import RealmBoot.Proofs.LongerPaths
import RealmBoot.Text.Blank

/-!
# Items of Texts

Lists are kept in texts: items between separators or line ends, each with a name and more, and
blanks around all of these that do not count. This module says how trimming and cutting go together.
Since no separator is a blank, it makes no difference whether a text is trimmed before it is cut, if
its parts are trimmed afterwards. The module also fixes what the first of several items is that has
some property, which is the one a reader of such a list stops at.

## Main results

* `Text.trimChars_append`, `Text.append_trimChars`: blanks around a text are trimmed away.
* `Text.cut_trimChars`, `Text.pieces_trimChars`: a trimmed text has the same parts, once these are
  trimmed.
* `exists_firstOf_cons_of_pos`, `exists_firstOf_cons_of_neg`: the first item with a property, one
  item after another.
-/

namespace RealmBoot

namespace Text

variable {sep : Char} {cs ds before after : List Char}

/-! ### Trimming -/

/-- Blanks at the end are trimmed away with those before them. -/
theorem trimEnd_append (h : ∀ c ∈ after, isBlank c = true) :
    trimEnd (cs ++ after) = trimEnd cs := by
  have hback : ∀ c ∈ after.reverse, isBlank c = true := fun c hc => h c (List.mem_reverse.mp hc)
  rw [trimEnd, List.reverse_append, List.dropWhile_append_of_pos hback, trimEnd]

/-- What is trimmed away at the end are blanks. -/
theorem exists_trimEnd (cs : List Char) :
    ∃ after, (∀ c ∈ after, isBlank c = true) ∧ cs = trimEnd cs ++ after := by
  refine ⟨(cs.reverse.takeWhile isBlank).reverse, fun c hc => ?_, ?_⟩
  · exact List.mem_takeWhile_imp (List.mem_reverse.mp hc)
  · rw [trimEnd, ← List.reverse_append, List.takeWhile_append_dropWhile, List.reverse_reverse]

/-- What is trimmed away at the start are blanks. -/
theorem exists_trimStart (cs : List Char) :
    ∃ before, (∀ c ∈ before, isBlank c = true) ∧ cs = before ++ trimStart cs :=
  ⟨cs.takeWhile isBlank, fun _ hc => List.mem_takeWhile_imp hc,
    List.takeWhile_append_dropWhile.symm⟩

/-- Nothing is left of a text exactly if it consists of blanks. -/
theorem trimChars_eq_nil_iff : trimChars cs = [] ↔ ∀ c ∈ cs, isBlank c = true := by
  have hend : ∀ ds : List Char, trimEnd ds = [] ↔ ∀ c ∈ ds, isBlank c = true := by
    intro ds
    rw [trimEnd, List.reverse_eq_nil_iff, List.dropWhile_eq_nil_iff]
    exact forall_congr' fun c => by rw [List.mem_reverse]
  rw [trimChars, hend]
  obtain ⟨before, hbefore, hsplit⟩ := exists_trimStart cs
  constructor
  · intro h c hc
    rw [hsplit] at hc
    exact (List.mem_append.mp hc).elim (hbefore c) (h c)
  · intro h c hc
    exact h c (hsplit ▸ List.mem_append_right _ hc)

/-- **Blanks before a text are trimmed away.** -/
theorem trimChars_append (h : ∀ c ∈ before, isBlank c = true) :
    trimChars (before ++ cs) = trimChars cs := by
  rw [trimChars, trimStart, List.dropWhile_append_of_pos h, trimChars, trimStart]

/-- **Blanks after a text are trimmed away.** -/
theorem append_trimChars (h : ∀ c ∈ after, isBlank c = true) :
    trimChars (cs ++ after) = trimChars cs := by
  by_cases hblank : ∀ c ∈ cs, isBlank c = true
  · have hall : ∀ c ∈ cs ++ after, isBlank c = true := fun c hc =>
      (List.mem_append.mp hc).elim (hblank c) (h c)
    rw [trimChars_eq_nil_iff.mpr hblank, trimChars_eq_nil_iff.mpr hall]
  · -- The first character that is no blank stops the trimming at the start.
    have hstart : trimStart (cs ++ after) = trimStart cs ++ after := by
      rw [trimStart, List.dropWhile_append, if_neg, trimStart]
      rwa [List.isEmpty_iff, List.dropWhile_eq_nil_iff]
    rw [trimChars, hstart, trimEnd_append h, trimChars]

/-- What is trimmed away at both ends are blanks. -/
theorem exists_trimChars (cs : List Char) :
    ∃ before after, (∀ c ∈ before, isBlank c = true) ∧ (∀ c ∈ after, isBlank c = true) ∧
      cs = before ++ (trimChars cs ++ after) := by
  obtain ⟨before, hbefore, hstart⟩ := exists_trimStart cs
  obtain ⟨after, hafter, hend⟩ := exists_trimEnd (trimStart cs)
  exact ⟨before, after, hbefore, hafter, hend ▸ hstart⟩

/-- A trimmed text has nothing left to trim. -/
theorem trimChars_trimChars (cs : List Char) : trimChars (trimChars cs) = trimChars cs := by
  obtain ⟨before, after, hbefore, hafter, hsplit⟩ := exists_trimChars cs
  calc trimChars (trimChars cs) = trimChars (before ++ (trimChars cs ++ after)) := by
        rw [trimChars_append hbefore, append_trimChars hafter]
    _ = trimChars cs := by rw [← hsplit]

/-! ### Cutting what was trimmed -/

/-- What comes before the first separator goes with the first part. -/
theorem cut_append_left (h : sep ∉ before) :
    cut sep (before ++ cs) = (cut sep cs).map (Prod.map (before ++ ·) id) := by
  induction before with
  | nil => exact (congrFun Option.map_id (cut sep cs)).symm
  | cons c before ih =>
      rw [List.mem_cons, not_or] at h
      rw [List.cons_append, cut, if_neg (Ne.symm h.1), ih h.2, Option.map_map]
      rfl

/-- What comes after it goes with the second part. -/
theorem cut_append_right (h : sep ∉ after) :
    cut sep (cs ++ after) = (cut sep cs).map (Prod.map id (· ++ after)) := by
  induction cs with
  | nil => simp [cut, cut_eq_none_iff.mpr h]
  | cons c cs ih =>
      by_cases hc : c = sep
      · simp [cut, hc]
      · rw [List.cons_append, cut, if_neg hc, ih, cut, if_neg hc, Option.map_map, Option.map_map]
        rfl

section Separator

variable (hsep : isBlank sep = false)
include hsep

/-- A separator is not among blanks. -/
theorem notMem_of_blank (h : ∀ c ∈ before, isBlank c = true) : sep ∉ before := by
  intro hmem
  rw [h sep hmem] at hsep
  cases hsep

/-- **A trimmed text is cut into the same two parts,** once these are trimmed. -/
theorem cut_trimChars (cs : List Char) :
    (cut sep (trimChars cs)).map (Prod.map trimChars trimChars) =
      (cut sep cs).map (Prod.map trimChars trimChars) := by
  obtain ⟨before, after, hbefore, hafter, hsplit⟩ := exists_trimChars cs
  generalize trimChars cs = inner at hsplit ⊢
  rw [hsplit, cut_append_left (notMem_of_blank hsep hbefore),
    cut_append_right (notMem_of_blank hsep hafter), Option.map_map, Option.map_map]
  refine Option.map_congr fun part _ => Prod.ext ?_ ?_
  · exact (trimChars_append hbefore).symm
  · exact (append_trimChars hafter).symm

/-- Two texts that are trimmed to the same are cut into the same parts, once these are trimmed. -/
theorem cut_congr (h : trimChars cs = trimChars ds) :
    (cut sep cs).map (Prod.map trimChars trimChars) =
      (cut sep ds).map (Prod.map trimChars trimChars) := by
  rw [← cut_trimChars hsep cs, h, cut_trimChars hsep]

/-- Blanks before a text make no difference to its pieces, once these are trimmed. -/
theorem pieces_append_left (h : ∀ c ∈ before, isBlank c = true) :
    (pieces sep (before ++ cs)).map trimChars = (pieces sep cs).map trimChars := by
  have hbefore := notMem_of_blank hsep h
  by_cases hmem : sep ∈ cs
  · obtain ⟨first, rest, rfl, hfirst⟩ := List.eq_append_cons_of_mem hmem
    have hlonger : sep ∉ before ++ first := by simp [hbefore, hfirst]
    rw [← List.append_assoc, pieces_append_sep hlonger, pieces_append_sep hfirst, List.map_cons,
      List.map_cons, trimChars_append h]
  · have hlonger : sep ∉ before ++ cs := by simp [hbefore, hmem]
    rw [pieces_eq_singleton hlonger, pieces_eq_singleton hmem, List.map_singleton,
      List.map_singleton, trimChars_append h]

/-- Blanks after a text make no difference to its pieces, once these are trimmed. -/
theorem pieces_append_right (h : ∀ c ∈ after, isBlank c = true) :
    (pieces sep (cs ++ after)).map trimChars = (pieces sep cs).map trimChars := by
  have hafter := notMem_of_blank hsep h
  by_cases hmem : sep ∈ cs
  · -- Only the piece behind the last separator becomes longer.
    obtain ⟨last, rest, hback, hlast⟩ := List.eq_append_cons_of_mem (List.mem_reverse.mpr hmem)
    obtain rfl : cs = rest.reverse ++ sep :: last.reverse := by
      rw [← List.reverse_reverse cs, hback]
      simp
    rw [← List.mem_reverse] at hlast
    have hlonger : sep ∉ last.reverse ++ after :=
      fun h => (List.mem_append.mp h).elim hlast hafter
    rw [List.append_assoc, List.cons_append, pieces_append_cons, pieces_append_cons,
      pieces_eq_singleton hlonger, pieces_eq_singleton hlast, List.map_append, List.map_append,
      List.map_singleton, List.map_singleton, append_trimChars h]
  · have hlonger : sep ∉ cs ++ after := by simp [hmem, hafter]
    rw [pieces_eq_singleton hlonger, pieces_eq_singleton hmem, List.map_singleton,
      List.map_singleton, append_trimChars h]

/-- **A trimmed text has the same pieces,** once these are trimmed. -/
theorem pieces_trimChars (cs : List Char) :
    (pieces sep (trimChars cs)).map trimChars = (pieces sep cs).map trimChars := by
  obtain ⟨before, after, hbefore, hafter, hsplit⟩ := exists_trimChars cs
  generalize trimChars cs = inner at hsplit ⊢
  rw [hsplit, pieces_append_left hsep hbefore, pieces_append_right hsep hafter]

end Separator

/-- All of a text without the separator stands before it. -/
theorem takeWhile_of_notMem (h : sep ∉ cs) : cs.takeWhile (· ≠ sep) = cs := by
  rw [List.takeWhile_eq_self_iff]
  intro c hc
  rw [decide_eq_true_eq]
  rintro rfl
  exact h hc

/-- The first piece and the further ones. -/
theorem pieces_eq_cons (sep : Char) (cs : List Char) :
    pieces sep cs = cs.takeWhile (· ≠ sep) :: (pieces sep cs).tail := by
  by_cases hmem : sep ∈ cs
  · obtain ⟨first, rest, rfl, hfirst⟩ := List.eq_append_cons_of_mem hmem
    have hplain := List.takeWhile_eq_self_iff.mp (takeWhile_of_notMem hfirst)
    rw [pieces_append_sep hfirst, List.takeWhile_append_of_pos hplain]
    simp
  · rw [pieces_eq_singleton hmem, takeWhile_of_notMem hmem]
    rfl

/-- Texts that are joined with a separator are the pieces around it. -/
theorem pieces_joined {sep : Char} {texts : List String} (hne : texts ≠ [])
    (h : ∀ s ∈ texts, sep ∉ s.toList) :
    pieces sep (joined (String.singleton sep) texts).toList = texts.map String.toList := by
  induction texts with
  | nil => exact absurd rfl hne
  | cons s texts ih =>
      have hs := h s List.mem_cons_self
      cases texts with
      | nil => exact pieces_eq_singleton hs
      | cons t texts =>
          have hchars : (joined (String.singleton sep) (s :: t :: texts)).toList =
              s.toList ++ sep :: (joined (String.singleton sep) (t :: texts)).toList := by
            simp [joined]
          have hrest := ih (by simp) fun s hs => h s (List.mem_cons_of_mem _ hs)
          rw [hchars, pieces_append_sep hs, hrest]
          rfl

end Text

/-! ### The first item with a property -/

variable {α : Type} {P : α → Prop} {x y : α} {xs before : List α}

/-- Of some items, `x` is the first with a property, and the items before it are those given. -/
structure FirstOf (P : α → Prop) (xs before : List α) (x : α) : Prop where
  /-- Both are among the items. -/
  split : ∃ after, xs = before ++ x :: after
  /-- The items before it do not have the property. -/
  clear : ∀ y ∈ before, ¬ P y
  /-- It has the property. -/
  holds : P x

/-- There is no first among no items. -/
theorem not_firstOf_nil : ¬ FirstOf P [] before x := by
  rintro ⟨⟨after, h⟩, -, -⟩
  cases before <;> cases h

/-- An item with the property is the first one. -/
theorem firstOf_cons_of_pos (h : P y) : FirstOf P (y :: xs) before x ↔ before = [] ∧ x = y := by
  constructor
  · rintro ⟨⟨after, hsplit⟩, hclear, -⟩
    cases before with
    | nil => exact ⟨rfl, (List.cons.inj hsplit).1.symm⟩
    | cons z before =>
        rw [(List.cons.inj hsplit).1] at h
        exact absurd h (hclear z List.mem_cons_self)
  · rintro ⟨rfl, rfl⟩
    exact ⟨⟨xs, rfl⟩, by simp, h⟩

/-- An item without the property is passed over. -/
theorem firstOf_cons_of_neg (h : ¬ P y) :
    FirstOf P (y :: xs) before x ↔ ∃ more, before = y :: more ∧ FirstOf P xs more x := by
  constructor
  · rintro ⟨⟨after, hsplit⟩, hclear, hx⟩
    cases before with
    | nil =>
        rw [(List.cons.inj hsplit).1] at h
        exact absurd hx h
    | cons z before =>
        obtain ⟨rfl, hrest⟩ := List.cons.inj hsplit
        exact ⟨before, rfl, ⟨after, hrest⟩, fun y hy => hclear y (List.mem_cons_of_mem _ hy), hx⟩
  · rintro ⟨more, rfl, ⟨after, rfl⟩, hclear, hx⟩
    refine ⟨⟨after, rfl⟩, fun z hz => ?_, hx⟩
    rcases List.mem_cons.mp hz with rfl | hz
    · exact h
    · exact hclear z hz

/-- There is something to say of the first item with the property, if the first of all has it. -/
theorem exists_firstOf_cons_of_pos {Q : List α → α → Prop} (h : P y) :
    (∃ before x, FirstOf P (y :: xs) before x ∧ Q before x) ↔ Q [] y := by
  constructor
  · rintro ⟨before, x, hfirst, hQ⟩
    obtain ⟨rfl, rfl⟩ := (firstOf_cons_of_pos h).mp hfirst
    exact hQ
  · exact fun hQ => ⟨[], y, (firstOf_cons_of_pos h).mpr ⟨rfl, rfl⟩, hQ⟩

/-- There is something to say of the first item with the property, if the first of all does not
have it. -/
theorem exists_firstOf_cons_of_neg {Q : List α → α → Prop} (h : ¬ P y) :
    (∃ before x, FirstOf P (y :: xs) before x ∧ Q before x) ↔
      ∃ before x, FirstOf P xs before x ∧ Q (y :: before) x := by
  constructor
  · rintro ⟨before, x, hfirst, hQ⟩
    obtain ⟨more, rfl, hmore⟩ := (firstOf_cons_of_neg h).mp hfirst
    exact ⟨more, x, hmore, hQ⟩
  · rintro ⟨more, x, hfirst, hQ⟩
    exact ⟨y :: more, x, (firstOf_cons_of_neg h).mpr ⟨more, rfl, hfirst⟩, hQ⟩

/-- Among items of which one has the property there is a first one. -/
theorem exists_firstOf_iff : (∃ before x, FirstOf P xs before x) ↔ ∃ x ∈ xs, P x := by
  constructor
  · rintro ⟨before, x, ⟨after, rfl⟩, -, hx⟩
    exact ⟨x, by simp, hx⟩
  · rintro ⟨x, hmem, hx⟩
    induction xs with
    | nil => cases hmem
    | cons y xs ih =>
        by_cases hy : P y
        · exact ⟨[], y, (firstOf_cons_of_pos hy).mpr ⟨rfl, rfl⟩⟩
        · rcases List.mem_cons.mp hmem with rfl | hmem
          · exact absurd hx hy
          · obtain ⟨more, z, hfirst⟩ := ih hmem
            exact ⟨y :: more, z, (firstOf_cons_of_neg hy).mpr ⟨more, rfl, hfirst⟩⟩

end RealmBoot
