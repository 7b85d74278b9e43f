/-!
# Ordered Sets

A finite set kept as the strictly increasing list of its members. Archive sets and sets of names
are of this kind: what is shown, searched and compared is always the sorted list.

* `OrderedSet.mem_insert`, `OrderedSet.mem_erase`, `OrderedSet.mem_union`: membership after each
  operation.
* `OrderedSet.ext`: a set is determined by its members.
* `OrderedSet.find?_eq_some_iff_least`: what is found first in increasing order is the least.
* `OrderedSet.search_iff`: the search by halves finds exactly the members.
-/

namespace RealmBoot

/-- An order on which sorting rests: irreflexive, transitive, and any two values that neither
precedes are equal. -/
class StrictOrder (α : Type) [LT α] : Prop where
  irrefl : ∀ a : α, ¬ a < a
  trans : ∀ {a b c : α}, a < b → b < c → a < c
  eq_of_not_lt : ∀ {a b : α}, ¬ a < b → ¬ b < a → a = b

instance : StrictOrder String where
  irrefl := String.lt_irrefl
  trans := String.lt_trans
  eq_of_not_lt h₁ h₂ := Std.Trichotomous.trichotomous _ _ h₁ h₂

instance : StrictOrder (List String) where
  irrefl := List.lt_irrefl
  trans := List.lt_trans
  eq_of_not_lt h₁ h₂ := Std.Trichotomous.trichotomous _ _ h₁ h₂

/-- A finite set as the strictly increasing list of its members. -/
structure OrderedSet (α : Type) [LT α] where
  /-- The members, in increasing order. -/
  toList : List α
  /-- The members increase strictly. -/
  sorted : toList.Pairwise (· < ·) := by simp

namespace OrderedSet

variable {α : Type} [LT α]

instance : EmptyCollection (OrderedSet α) := ⟨⟨[], .nil⟩⟩

instance : Inhabited (OrderedSet α) := ⟨∅⟩

instance : Membership α (OrderedSet α) := ⟨fun s a => a ∈ s.toList⟩

/-- The members of a set are those of its list. -/
theorem mem_def {a : α} {s : OrderedSet α} : a ∈ s ↔ a ∈ s.toList := Iff.rfl

instance [DecidableEq α] (a : α) (s : OrderedSet α) : Decidable (a ∈ s) :=
  inferInstanceAs (Decidable (a ∈ s.toList))

instance [DecidableEq α] : DecidableEq (OrderedSet α) := fun s t =>
  decidable_of_iff (s.toList = t.toList) <| by
    cases s; cases t; simp

/-- Puts a value in front of the first larger one, unless it is there already. -/
def insertList [DecidableLT α] (a : α) : List α → List α
  | [] => [a]
  | b :: bs => if a < b then a :: b :: bs else if b < a then b :: insertList a bs else b :: bs

section Order

variable [DecidableLT α] [StrictOrder α]

/-- Inserting into a list adds one member. -/
theorem mem_insertList {a x : α} {l : List α} : x ∈ insertList a l ↔ x = a ∨ x ∈ l := by
  induction l with
  | nil => simp [insertList]
  | cons b bs ih =>
    unfold insertList
    split
    · simp
    · split
      · simp only [List.mem_cons, ih]
        grind
      · next h₁ h₂ =>
        obtain rfl : a = b := StrictOrder.eq_of_not_lt h₁ h₂
        simp

/-- Inserting into a list keeps it increasing. -/
theorem pairwise_insertList {a : α} {l : List α} (h : l.Pairwise (· < ·)) :
    (insertList a l).Pairwise (· < ·) := by
  induction l with
  | nil => simp [insertList]
  | cons b bs ih =>
    obtain ⟨hb, hbs⟩ := List.pairwise_cons.1 h
    unfold insertList
    split
    · next hab =>
      refine List.pairwise_cons.2 ⟨fun x hx => ?_, h⟩
      rcases List.mem_cons.1 hx with rfl | hx
      · exact hab
      · exact StrictOrder.trans hab (hb x hx)
    · split
      · next hba =>
        refine List.pairwise_cons.2 ⟨fun x hx => ?_, ih hbs⟩
        rcases mem_insertList.1 hx with rfl | hx
        · exact hba
        · exact hb x hx
      · exact h

/-- The set with one more member. -/
def insert (s : OrderedSet α) (a : α) : OrderedSet α :=
  ⟨insertList a s.toList, pairwise_insertList s.sorted⟩

/-- Inserting adds one member. -/
@[simp] theorem mem_insert {s : OrderedSet α} {a x : α} : x ∈ s.insert a ↔ x = a ∨ x ∈ s :=
  mem_insertList

/-- The set with all values of a list added. -/
def insertAll (s : OrderedSet α) (l : List α) : OrderedSet α := l.foldl insert s

/-- Inserting a list adds its members. -/
@[simp] theorem mem_insertAll {s : OrderedSet α} {l : List α} {x : α} :
    x ∈ s.insertAll l ↔ x ∈ s ∨ x ∈ l := by
  induction l generalizing s with
  | nil => simp [insertAll]
  | cons a l ih =>
    have : x ∈ (s.insert a).insertAll l ↔ x ∈ s.insert a ∨ x ∈ l := ih
    simp only [insertAll, List.foldl_cons, List.mem_cons] at this ⊢
    rw [this, mem_insert]
    grind

/-- The set of the values of a list. -/
def ofList (l : List α) : OrderedSet α := insertAll ∅ l

/-- A set made of a list has its members. -/
@[simp] theorem mem_ofList {l : List α} {x : α} : x ∈ ofList l ↔ x ∈ l := by
  have : ¬ x ∈ (∅ : OrderedSet α) := by simp [mem_def, EmptyCollection.emptyCollection]
  simp [ofList, this]

/-- The members of either of two sets. -/
def union (s t : OrderedSet α) : OrderedSet α := s.insertAll t.toList

/-- A union has the members of both sets. -/
@[simp] theorem mem_union {s t : OrderedSet α} {x : α} : x ∈ s.union t ↔ x ∈ s ∨ x ∈ t := by
  simp [union, mem_def (s := t)]

omit [DecidableLT α] in
/-- A strictly increasing list is determined by its members. -/
theorem eq_of_mem_iff {l m : List α} (hl : l.Pairwise (· < ·)) (hm : m.Pairwise (· < ·))
    (h : ∀ x, x ∈ l ↔ x ∈ m) : l = m := by
  induction l generalizing m with
  | nil =>
    cases m with
    | nil => rfl
    | cons b m => exact absurd ((h b).2 (by simp)) (by simp)
  | cons a l ih =>
    obtain ⟨ha, hl'⟩ := List.pairwise_cons.1 hl
    cases m with
    | nil => exact absurd ((h a).1 (by simp)) (by simp)
    | cons b m =>
      obtain ⟨hb, hm'⟩ := List.pairwise_cons.1 hm
      have hab : a = b := by
        rcases List.mem_cons.1 ((h a).1 (by simp)) with e | e
        · exact e
        · rcases List.mem_cons.1 ((h b).2 (by simp)) with e' | e'
          · exact e'.symm
          · exact absurd (StrictOrder.trans (ha b e') (hb a e)) (StrictOrder.irrefl a)
      subst hab
      have hal : a ∉ l := fun e => StrictOrder.irrefl a (ha a e)
      have ham : a ∉ m := fun e => StrictOrder.irrefl a (hb a e)
      congr 1
      refine ih hl' hm' fun x => ⟨fun hx => ?_, fun hx => ?_⟩
      · rcases List.mem_cons.1 ((h x).1 (List.mem_cons_of_mem _ hx)) with rfl | hx'
        · exact absurd hx hal
        · exact hx'
      · rcases List.mem_cons.1 ((h x).2 (List.mem_cons_of_mem _ hx)) with rfl | hx'
        · exact absurd hx ham
        · exact hx'

omit [DecidableLT α] in
/-- A set is determined by its members. -/
theorem ext {s t : OrderedSet α} (h : ∀ x, x ∈ s ↔ x ∈ t) : s = t := by
  cases s with | mk l hl => cases t with | mk m hm =>
  simp only [mk.injEq]
  exact eq_of_mem_iff hl hm h

omit [DecidableLT α] in
/-- Among entries whose keys increase, the first that satisfies a condition is the one with the
least key. -/
theorem find?_eq_some_iff_least {β : Type} {key : β → α} {p : β → Bool} {l : List β} {b : β}
    (hl : (l.map key).Pairwise (· < ·)) :
    l.find? p = some b ↔ (b ∈ l ∧ p b = true) ∧ ∀ c ∈ l, p c = true → ¬ key c < key b := by
  induction l with
  | nil => simp
  | cons a l ih =>
    rw [List.map_cons, List.pairwise_cons] at hl
    obtain ⟨ha, hl'⟩ := hl
    have habove : ∀ c ∈ l, key a < key c := fun c hc => ha _ (List.mem_map_of_mem hc)
    by_cases hp : p a = true
    · rw [List.find?_cons_of_pos hp]
      constructor
      · rintro ⟨⟩
        refine ⟨⟨by simp, hp⟩, fun c hc _ hlt => ?_⟩
        rcases List.mem_cons.1 hc with rfl | hc
        · exact StrictOrder.irrefl _ hlt
        · exact StrictOrder.irrefl _ (StrictOrder.trans (habove c hc) hlt)
      · rintro ⟨⟨hb, -⟩, hleast⟩
        rcases List.mem_cons.1 hb with rfl | hb
        · rfl
        · exact absurd (habove b hb) (hleast a (by simp) hp)
    · rw [List.find?_cons_of_neg hp, ih hl', List.mem_cons]
      constructor
      · rintro ⟨⟨hb, hpb⟩, hleast⟩
        refine ⟨⟨.inr hb, hpb⟩, fun c hc hpc => ?_⟩
        rcases List.mem_cons.1 hc with rfl | hc
        · exact absurd hpc hp
        · exact hleast c hc hpc
      · rintro ⟨⟨hb, hpb⟩, hleast⟩
        rcases hb with rfl | hb
        · exact absurd hpb hp
        · exact ⟨⟨hb, hpb⟩, fun c hc => hleast c (List.mem_cons_of_mem _ hc)⟩

/-- Whether a value stands in an increasing list. It is compared with the one in the middle, and
then only the half that may still hold it is searched. -/
def bisect (a : α) (l : List α) : Bool :=
  match h : l.drop (l.length / 2) with
  | [] => false
  | b :: upper =>
    if a < b then bisect a (l.take (l.length / 2))
    else if b < a then bisect a upper
    else true
termination_by l.length
decreasing_by
  all_goals
    have hlength := congrArg List.length h
    simp only [List.length_drop, List.length_cons, List.length_take] at hlength ⊢
    omega

omit [DecidableLT α] [StrictOrder α] in
/-- A value of an increasing list stands between those before it and those after it. -/
theorem around_middle {l upper : List α} {b : α} {k : Nat} (h : l.Pairwise (· < ·))
    (hdrop : l.drop k = b :: upper) :
    (∀ c ∈ l.take k, c < b) ∧ (∀ c ∈ upper, b < c) ∧
      ∀ c, c ∈ l ↔ c ∈ l.take k ∨ c = b ∨ c ∈ upper := by
  have hsplit : l = l.take k ++ b :: upper := by rw [← hdrop, List.take_append_drop]
  refine ⟨?_, (List.pairwise_cons.mp (hdrop ▸ h.drop)).1, fun c => ?_⟩
  · rw [hsplit] at h
    exact fun c hc => (List.pairwise_append.mp h).2.2 c hc b (by simp)
  · have hmem : c ∈ l ↔ c ∈ l.take k ++ b :: upper := by rw [← hsplit]
    simpa using hmem

/-- In an increasing list the search by halves misses nothing. -/
theorem bisect_iff {a : α} {l : List α} (h : l.Pairwise (· < ·)) : bisect a l = true ↔ a ∈ l := by
  fun_induction bisect a l with
  | case1 l hdrop =>
    have hlength := congrArg List.length hdrop
    simp only [List.length_drop, List.length_nil] at hlength
    obtain rfl : l = [] := List.eq_nil_of_length_eq_zero (by omega)
    simp
  | case2 l b upper hdrop hab ih =>
    obtain ⟨-, habove, hmem⟩ := around_middle h hdrop
    rw [ih h.take, hmem]
    refine (or_iff_left ?_).symm
    rintro (rfl | ha)
    · exact StrictOrder.irrefl _ hab
    · exact StrictOrder.irrefl _ (StrictOrder.trans hab (habove a ha))
  | case3 l b upper hdrop hab hba ih =>
    obtain ⟨hbelow, -, hmem⟩ := around_middle h hdrop
    rw [ih (List.pairwise_cons.mp (hdrop ▸ h.drop)).2, hmem]
    constructor
    · exact fun ha => .inr (.inr ha)
    · rintro (ha | rfl | ha)
      · exact absurd (StrictOrder.trans hba (hbelow a ha)) (StrictOrder.irrefl b)
      · exact absurd hba (StrictOrder.irrefl a)
      · exact ha
  | case4 l b upper hdrop hab hba =>
    obtain rfl : a = b := StrictOrder.eq_of_not_lt hab hba
    simp [(around_middle h hdrop).2.2 a]

/-- Whether a value is a member, found out by halves. -/
def search (s : OrderedSet α) (a : α) : Bool := bisect a s.toList

/-- Searching by halves finds the members. -/
@[simp] theorem search_iff {s : OrderedSet α} {a : α} : s.search a = true ↔ a ∈ s :=
  bisect_iff s.sorted

end Order

section Filter

/-- The members that satisfy a condition. -/
def filter (p : α → Bool) (s : OrderedSet α) : OrderedSet α :=
  ⟨s.toList.filter p, s.sorted.filter _⟩

/-- A filter keeps the members that pass. -/
@[simp] theorem mem_filter {p : α → Bool} {s : OrderedSet α} {x : α} :
    x ∈ s.filter p ↔ x ∈ s ∧ p x = true := by
  simp [mem_def, filter]

variable [DecidableEq α]

/-- The set without one value. -/
def erase (s : OrderedSet α) (a : α) : OrderedSet α := s.filter (· ≠ a)

/-- Erasing takes one member out. -/
@[simp] theorem mem_erase {s : OrderedSet α} {a x : α} : x ∈ s.erase a ↔ x ∈ s ∧ x ≠ a := by
  simp [erase]

/-- The members of the first set that the second one lacks. -/
def without (s t : OrderedSet α) : OrderedSet α := s.filter (· ∉ t)

/-- Taking a set out leaves the members that are not in it. -/
@[simp] theorem mem_without {s t : OrderedSet α} {x : α} : x ∈ s.without t ↔ x ∈ s ∧ x ∉ t := by
  simp [without]

/-- Whether a value is a member. -/
def contains (s : OrderedSet α) (a : α) : Bool := decide (a ∈ s)

end Filter

end OrderedSet

end RealmBoot
