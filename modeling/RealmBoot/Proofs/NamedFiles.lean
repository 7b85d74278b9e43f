import RealmBoot.Files.Resolve

/-!
# Named Files

A file tree as such may hold things under any text. This module fixes what the system allows as the
name of something in a directory, and the property of a file system that everything in it has such
a name. What the program says about paths holds of those file systems only: under a name with a
slash in it, nothing is ever found.

## Main results

* `FileSystem.named_of_namesAllowed`: the names of a given tree can be checked one by one.
-/

namespace RealmBoot

instance Location.decidableIsName (s : String) : Decidable (IsName s) :=
  inferInstanceAs (Decidable (s ≠ "" ∧ s ≠ "." ∧ s ≠ ".." ∧ '/' ∉ s.toList))

namespace FileSystem

/-- A text that the system allows as the name of something in a directory. -/
structure NameAllowed (s : String) : Prop where
  /-- It can stand on a path. -/
  isName : Location.IsName s
  /-- It does not contain the null character. -/
  noNull : '\x00' ∉ s.toList
  /-- It is not too long. -/
  fits : s.utf8ByteSize ≤ nameLimit

instance (s : String) : Decidable (NameAllowed s) :=
  decidable_of_iff (Location.IsName s ∧ '\x00' ∉ s.toList ∧ s.utf8ByteSize ≤ nameLimit)
    ⟨fun h => ⟨h.1, h.2.1, h.2.2⟩, fun h => ⟨h.isName, h.noNull, h.fits⟩⟩

/-- Everything in a file system has a name that the system allows. -/
def Named (fs : FileSystem) : Prop := ∀ p n, fs.node? p = some n → ∀ s ∈ p, NameAllowed s

end FileSystem

/-! ### Checking the names of a tree -/

mutual

/-- Whether all names in a tree are allowed. -/
def FileTree.namesAllowed : FileTree → Bool
  | .file .. => true
  | .link _ => true
  | .directory entries => Contents.namesAllowed entries

/-- Whether all names in what a directory holds are allowed. -/
def Contents.namesAllowed : List (String × FileTree) → Bool
  | [] => true
  | (s, t) :: cs =>
    decide (FileSystem.NameAllowed s) && t.namesAllowed && Contents.namesAllowed cs

end

namespace Contents

/-- What is found under a name is found under one that was checked, and its own names were checked
too. -/
theorem namesAllowed_of_lookup {cs : Contents} {s : String} {t : FileTree}
    (h : namesAllowed cs = true) (ht : cs.lookup s = some t) :
    FileSystem.NameAllowed s ∧ t.namesAllowed = true := by
  induction cs with
  | nil => cases ht
  | cons e cs ih =>
      obtain ⟨s', t'⟩ := e
      rw [namesAllowed, Bool.and_eq_true, Bool.and_eq_true, decide_eq_true_eq] at h
      rw [List.lookup_cons] at ht
      cases hs : s == s' with
      | true =>
          rw [hs] at ht
          cases ht
          rw [beq_iff_eq] at hs
          exact hs ▸ h.1
      | false =>
          rw [hs] at ht
          exact ih h.2 ht

/-- Every name on the way to something in a tree is one of those that are checked. -/
theorem nameAllowed_of_at? {cs : Contents} {p : Place} {t : FileTree}
    (h : namesAllowed cs = true) (ht : cs.at? p = some t) {s : String} (hs : s ∈ p) :
    FileSystem.NameAllowed s := by
  induction p generalizing cs with
  | nil => cases hs
  | cons name rest ih =>
      rw [at?] at ht
      cases hlook : cs.lookup name with
      | none => simp [hlook] at ht
      | some t' =>
          obtain ⟨hname, hsub⟩ := namesAllowed_of_lookup h hlook
          rcases List.mem_cons.mp hs with rfl | hs
          · exact hname
          · have hrest : rest ≠ [] := List.ne_nil_of_mem hs
            cases t' with
            | file => simp [hlook, hrest] at ht
            | link => simp [hlook, hrest] at ht
            | directory sub =>
                rw [hlook] at ht
                rw [FileTree.namesAllowed] at hsub
                exact ih hsub ht hs

end Contents

/-- **The names of a given tree can be checked one by one.** -/
theorem FileSystem.named_of_namesAllowed {fs : FileSystem}
    (h : Contents.namesAllowed fs.root = true) : fs.Named := by
  intro p n hn s hs
  obtain ⟨t, ht, -⟩ := Option.map_eq_some_iff.mp hn
  exact Contents.nameAllowed_of_at? h ht hs

end RealmBoot
