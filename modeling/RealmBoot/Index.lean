/-!
# Indexes Filled in a Loop

An index keeps one value under each of its keys. It is filled in a loop, and what was entered under
a key first stays: a value that is entered under the same key later is passed over.

* `Index.enter`: enters a value, unless there is one under the key.
* `Index.get?_enterAll`: a look into an index that was filled in a loop finds what a search for the
  first value with the key would find.
-/

namespace RealmBoot

/-- Values under keys, in the order in which the keys were entered. -/
structure Index (α : Type) where
  /-- The keys with their values. -/
  entries : List (String × α)
  /-- There is one value under each key. -/
  distinct : (entries.map (·.1)).Nodup := by simp

namespace Index

variable {α : Type} (i : Index α) (key other : String) (value : α)

instance : EmptyCollection (Index α) := ⟨⟨[], .nil⟩⟩

instance : Inhabited (Index α) := ⟨∅⟩

/-- The keys. -/
def keys : List String := i.entries.map (·.1)

/-- The value under a key. -/
def get? : Option α := (i.entries.find? (·.1 = key)).map (·.2)

/-- Enters a value under a key, unless there is one already. -/
def enter : Index α :=
  if h : key ∈ i.keys then i
  else
    { entries := i.entries ++ [(key, value)]
      distinct := by
        rw [List.map_append, List.nodup_append]
        refine ⟨i.distinct, by simp, ?_⟩
        rintro k hk _ hkey rfl
        obtain rfl : k = key := List.mem_singleton.mp hkey
        exact h hk }

/-- Enters a value under each of several keys. -/
def enterEach (keys : List String) : Index α :=
  keys.foldl (fun i key => i.enter key value) i

/-- Enters several values one after another, each of them under several keys. -/
def enterAll (contents : List (α × List String)) : Index α :=
  contents.foldl (fun i c => i.enterEach c.1 c.2) i

/-- There is nothing in an empty index. -/
@[simp] theorem get?_empty : (∅ : Index α).get? key = none := rfl

/-- The keys are those under which there is a value. -/
theorem mem_keys_iff : key ∈ i.keys ↔ (i.get? key).isSome = true := by
  simp [keys, get?]

/-- What is entered under a key is found there, unless there was a value before. -/
theorem get?_enter :
    (i.enter key value).get? other =
      (i.get? other).or (if key = other then some value else none) := by
  unfold enter
  split
  · next hmem =>
      split
      · next heq =>
          subst heq
          obtain ⟨v, hv⟩ := Option.isSome_iff_exists.mp ((i.mem_keys_iff key).mp hmem)
          rw [hv, Option.some_or]
      · rw [Option.or_none]
  · rw [get?, List.find?_append, Option.map_or, ← get?]
    congr 1
    by_cases heq : key = other <;> simp [heq]

/-- What is entered under several keys is found under each of them that had no value before. -/
theorem get?_enterEach (keys : List String) :
    (i.enterEach value keys).get? other =
      (i.get? other).or (if other ∈ keys then some value else none) := by
  induction keys generalizing i with
  | nil => simp [enterEach]
  | cons key keys ih =>
      have hstep : i.enterEach value (key :: keys) = (i.enter key value).enterEach value keys := rfl
      rw [hstep, ih, get?_enter, Option.or_assoc]
      congr 1
      by_cases heq : key = other
      · simp [heq]
      · simp [heq, Ne.symm heq]

/-- **Of several values the first that comes with a key is found under it,** unless there was one
before. -/
theorem get?_enterAll (contents : List (α × List String)) :
    (i.enterAll contents).get? other =
      (i.get? other).or ((contents.find? fun c => other ∈ c.2).map (·.1)) := by
  induction contents generalizing i with
  | nil => simp [enterAll]
  | cons c contents ih =>
      have hstep : i.enterAll (c :: contents) = (i.enterEach c.1 c.2).enterAll contents := rfl
      rw [hstep, ih, get?_enterEach, Option.or_assoc]
      congr 1
      by_cases hc : other ∈ c.2 <;> simp [hc]

end Index

end RealmBoot
