import Mathlib.Logic.Basic
import Mathlib.Tactic.SplitIfs
import RealmBoot.Files.Access

/-!
# Following Paths, Node by Node

A path is followed with what the directories on the way hold in hand, since that is how it runs.
What a walk gives depends on less: on the nodes at the places it comes through. This module says so,
name by name, and everything proved about paths elsewhere rests on these equations.

## Main results

* `FileSystem.node?_parent`: whatever stands at a place stands in a directory.
* `FileSystem.stretch_cons`: one name of a walk, given by the node it leads to.
* `FileSystem.stretch_eq_iff`: a walk up to its first link, as a relation with one case for each way
  a name can be met. Whatever is proved of such walks is proved by induction on it.
* `FileSystem.follow_eq_ok_iff`: the same for a walk over links.
* `FileSystem.follow_stands`: what stands where a path ends.
-/

namespace RealmBoot

/-! ### Places below places -/

namespace Contents

/-- What is found behind a place is found in what the place holds. -/
theorem at?_append (cs : Contents) (p q : Place) :
    cs.at? (p ++ q) =
      match cs.at? p with
      | some (.directory sub) => at? sub q
      | some t => if q = [] then some t else none
      | none => none := by
  induction p generalizing cs with
  | nil => rfl
  | cons name rest ih =>
      rw [List.cons_append, at?, at?]
      cases cs.lookup name with
      | none => rfl
      | some t =>
          cases t with
          | directory sub => exact ih sub
          | file => cases rest <;> simp
          | link => cases rest <;> simp

end Contents

namespace FileSystem

variable {fs : FileSystem}

/-- A place holds a directory if that is its node. -/
theorem isDirectoryAt_iff {p : Place} :
    fs.isDirectoryAt p = true ↔ fs.node? p = some .directory := by
  simp [isDirectoryAt]

/-- The node behind a directory by one name is what the directory holds under that name. -/
theorem node?_child (fs : FileSystem) (p : Place) (s : String) :
    fs.node? (p ++ [s]) = ((fs.contents p).lookup s).map (·.node) := by
  simp only [node?, Contents.node?, Contents.at?_append, contents]
  cases fs.root.at? p with
  | none => simp
  | some t =>
      cases t with
      | directory sub =>
          simp only [Contents.at?]
          cases sub.lookup s with
          | none => simp
          | some t => cases t <;> simp
      | file => simp
      | link => simp

/-- What a directory in a directory holds. -/
theorem contents_child {p : Place} {s : String} {sub : Contents}
    (h : (fs.contents p).lookup s = some (.directory sub)) : fs.contents (p ++ [s]) = sub := by
  rw [contents] at h ⊢
  rw [Contents.at?_append]
  split at h
  · next cs hcs => simp [hcs, Contents.at?, h]
  · simp at h

/-- **Whatever stands at a place stands in a directory.** -/
theorem node?_parent {p q : Place} {n : Node} (hq : q ≠ []) (h : fs.node? (p ++ q) = some n) :
    fs.node? p = some .directory := by
  simp only [node?, Contents.node?, Contents.at?_append] at h ⊢
  cases hp : fs.root.at? p with
  | none => simp [hp] at h
  | some t =>
      cases t with
      | directory sub => rfl
      | file => simp [hp, hq] at h
      | link => simp [hp, hq] at h

/-- The place above a node holds a directory. -/
theorem node?_dropLast {p : Place} {n : Node} (h : fs.node? p = some n) :
    fs.node? p.dropLast = some .directory := by
  rcases List.eq_nil_or_concat p with rfl | ⟨above, s, rfl⟩
  · rfl
  · rw [List.concat_eq_append] at h ⊢
    rw [List.dropLast_concat]
    exact node?_parent (by simp) h

/-- The directory above another one, both given by the names that lead to them, innermost first. -/
theorem node?_tail {trail : List String} (h : fs.node? trail.reverse = some .directory) :
    fs.node? trail.tail.reverse = some .directory := by
  have hparent := node?_dropLast h
  rwa [List.dropLast_reverse] at hparent

/-- Below a place at which nothing stands there is nothing. -/
theorem node?_of_free {p q : Place} (hfree : fs.node? q = none) (hq : q <+: p) :
    fs.node? p = none := by
  obtain ⟨rest, rfl⟩ := hq
  cases rest with
  | nil => rwa [List.append_nil]
  | cons s rest =>
      cases hn : fs.node? (q ++ s :: rest) with
      | none => rfl
      | some n =>
          rw [node?_parent (by simp) hn] at hfree
          cases hfree

/-! ### One name after another -/

/-- How far a path leads from the directory with the given names, innermost first. -/
def stretch (fs : FileSystem) (last : AtEnd) (trail todo : List String) : Stretch :=
  fs.advance last trail (fs.contents trail.reverse) todo

/-- Without a segment to go the path has arrived. -/
@[simp] theorem stretch_nil (last : AtEnd) (trail : List String) :
    fs.stretch last trail [] = .done (.arrived trail.reverse) := rfl

/-- Where a name leads that is neither `.` nor `..`, by the node it names. -/
def enter (fs : FileSystem) (last : AtEnd) (trail : List String) (s : String)
    (rest : List String) : Option Node → Stretch
  | none => if rest.isEmpty then .done (.vacant (s :: trail).reverse) else .failed .notFound
  | some (.link target) =>
    if rest.isEmpty && last = .kept then .done (.arrived (s :: trail).reverse)
    else .crossing trail.reverse target rest
  | some .directory => fs.stretch last (s :: trail) rest
  | some (.file ..) =>
    if rest.isEmpty then .done (.arrived (s :: trail).reverse) else .failed .notDirectory

/-- **One name of a walk.** -/
theorem stretch_cons (fs : FileSystem) (last : AtEnd) (trail : List String) (s : String)
    (rest : List String) :
    fs.stretch last trail (s :: rest) =
      if s = "." then fs.stretch last trail rest
      else if s = ".." then fs.stretch last trail.tail rest
      else if s.utf8ByteSize > nameLimit then .failed .nameTooLong
      else fs.enter last trail s rest (fs.node? (s :: trail).reverse) := by
  rw [List.reverse_cons, node?_child]
  rw [stretch]
  rw [advance]
  refine if_congr Iff.rfl rfl (if_congr Iff.rfl rfl (if_congr Iff.rfl rfl ?_))
  cases hs : (fs.contents trail.reverse).lookup s with
  | none => rfl
  | some t =>
      cases t with
      | link target => rfl
      | file bytes modified => rfl
      | directory sub =>
          have hsub := contents_child hs
          rw [← List.reverse_cons] at hsub
          simp only [Option.map_some, FileTree.node, enter, stretch, hsub]

/-- A segment that is looked up in a directory: it is no dot, and not too long. -/
structure LookedUp (s : String) : Prop where
  /-- It is not `.`. -/
  notHere : s ≠ "."
  /-- It is not `..`. -/
  notUp : s ≠ ".."
  /-- It is not too long. -/
  fits : s.utf8ByteSize ≤ nameLimit

/-- How a stretch along segments goes, one segment after another. -/
inductive Stretches (fs : FileSystem) (last : AtEnd) :
    (trail todo : List String) → Stretch → Prop
  /-- There are no segments left. -/
  | nil (trail : List String) : Stretches fs last trail [] (.done (.arrived trail.reverse))
  /-- A `.` leads nowhere else. -/
  | dot {trail rest : List String} {r : Stretch} (on : Stretches fs last trail rest r) :
      Stretches fs last trail ("." :: rest) r
  /-- A `..` leads to the directory above. -/
  | up {trail rest : List String} {r : Stretch} (on : Stretches fs last trail.tail rest r) :
      Stretches fs last trail (".." :: rest) r
  /-- A segment is too long to be looked up. -/
  | tooLong {trail rest : List String} {s : String} (notHere : s ≠ ".") (notUp : s ≠ "..")
      (long : nameLimit < s.utf8ByteSize) :
      Stretches fs last trail (s :: rest) (.failed .nameTooLong)
  /-- A directory is entered. -/
  | into {trail rest : List String} {s : String} {r : Stretch} (looked : LookedUp s)
      (node : fs.node? (s :: trail).reverse = some .directory)
      (on : Stretches fs last (s :: trail) rest r) : Stretches fs last trail (s :: rest) r
  /-- The last segment names a file, or a link that is kept. -/
  | arrived {trail : List String} {s : String} {n : Node} (looked : LookedUp s)
      (node : fs.node? (s :: trail).reverse = some n)
      (kind : n.kind = .file ∨ n.kind = .link ∧ last = .kept) :
      Stretches fs last trail [s] (.done (.arrived (s :: trail).reverse))
  /-- The last segment is free. -/
  | vacant {trail : List String} {s : String} (looked : LookedUp s)
      (free : fs.node? (s :: trail).reverse = none) :
      Stretches fs last trail [s] (.done (.vacant (s :: trail).reverse))
  /-- A segment before the last one is free. -/
  | missing {trail rest : List String} {s : String} (looked : LookedUp s)
      (free : fs.node? (s :: trail).reverse = none) (more : rest ≠ []) :
      Stretches fs last trail (s :: rest) (.failed .notFound)
  /-- A segment before the last one names a file. -/
  | blocked {trail rest : List String} {s : String} {bytes : ByteArray} {time : Stamp}
      (looked : LookedUp s) (node : fs.node? (s :: trail).reverse = some (.file bytes time))
      (more : rest ≠ []) : Stretches fs last trail (s :: rest) (.failed .notDirectory)
  /-- A link has to be followed. -/
  | crossing {trail rest : List String} {s : String} {target : Path} (looked : LookedUp s)
      (node : fs.node? (s :: trail).reverse = some (.link target))
      (followed : rest = [] → last ≠ .kept) :
      Stretches fs last trail (s :: rest) (.crossing trail.reverse target rest)

/-- A segment that is looked up leads on by the node that it names. -/
theorem LookedUp.stretch_cons {s : String} (hs : LookedUp s) (last : AtEnd)
    (trail rest : List String) :
    fs.stretch last trail (s :: rest) =
      fs.enter last trail s rest (fs.node? (s :: trail).reverse) := by
  rw [FileSystem.stretch_cons, if_neg hs.notHere, if_neg hs.notUp, if_neg (Nat.not_lt.mpr hs.fits)]

/-- Every stretch goes one of these ways. -/
theorem stretches_stretch (fs : FileSystem) (last : AtEnd) (trail todo : List String) :
    Stretches fs last trail todo (fs.stretch last trail todo) := by
  induction todo generalizing trail with
  | nil => exact .nil trail
  | cons s rest ih =>
      rw [stretch_cons]
      split_ifs with hdot hup hlong
      · exact hdot ▸ .dot (ih trail)
      · exact hup ▸ .up (ih trail.tail)
      · exact .tooLong hdot hup hlong
      · have hs : LookedUp s := ⟨hdot, hup, Nat.not_lt.mp hlong⟩
        cases hnode : fs.node? (s :: trail).reverse with
        | none =>
            rw [enter]
            split_ifs with hend
            · exact List.isEmpty_iff.mp hend ▸ .vacant hs hnode
            · exact .missing hs hnode (by simpa using hend)
        | some n =>
            cases n with
            | directory => exact .into hs hnode (ih _)
            | link target =>
                rw [enter]
                split_ifs with hend
                · obtain ⟨hrest, hkept⟩ := Bool.and_eq_true _ _ |>.mp hend
                  rw [List.isEmpty_iff.mp hrest]
                  exact .arrived hs hnode (.inr ⟨rfl, of_decide_eq_true hkept⟩)
                · exact .crossing hs hnode fun hrest hkept => hend (by simp [hrest, hkept])
            | file bytes time =>
                rw [enter]
                split_ifs with hend
                · exact List.isEmpty_iff.mp hend ▸ .arrived hs hnode (.inl rfl)
                · exact .blocked hs hnode (by simpa using hend)

/-- **What a stretch comes to is how it goes.** -/
theorem stretch_eq_iff {last : AtEnd} {trail todo : List String} {r : Stretch} :
    fs.stretch last trail todo = r ↔ Stretches fs last trail todo r := by
  refine ⟨fun h => h ▸ stretches_stretch fs last trail todo, fun h => ?_⟩
  induction h with
  | nil => rfl
  | dot _ ih => rw [stretch_cons, if_pos rfl, ih]
  | up _ ih => rw [stretch_cons, if_neg (by decide), if_pos rfl, ih]
  | tooLong hdot hup hlong => rw [stretch_cons, if_neg hdot, if_neg hup, if_pos hlong]
  | into hs hnode _ ih => rw [hs.stretch_cons, hnode, enter, ih]
  | vacant hs hfree =>
      rw [hs.stretch_cons, hfree]
      rfl
  | missing hs hfree hmore =>
      rw [hs.stretch_cons, hfree, enter, if_neg (by simpa using hmore)]
  | blocked hs hnode hmore =>
      rw [hs.stretch_cons, hnode, enter, if_neg (by simpa using hmore)]
  | @arrived trail s n hs hnode hkind =>
      rw [hs.stretch_cons, hnode]
      cases n with
      | file bytes time => rfl
      | directory => simp [Node.kind] at hkind
      | link target =>
          obtain ⟨-, hkept⟩ := hkind.resolve_left (by simp [Node.kind])
          rw [enter, if_pos (by simp [hkept])]
  | crossing hs hnode hfollowed =>
      rw [hs.stretch_cons, hnode, enter, if_neg]
      intro hend
      obtain ⟨hrest, hkept⟩ := Bool.and_eq_true _ _ |>.mp hend
      exact hfollowed (List.isEmpty_iff.mp hrest) (of_decide_eq_true hkept)

/-- What stands where a path has led: a node, which is a link only if those are kept, or nothing, in
a directory. -/
def Stands (fs : FileSystem) (last : AtEnd) : Lead → Prop
  | .arrived q => ∃ n, fs.node? q = some n ∧ (n.kind = .link → last = .kept)
  | .vacant q => q ≠ [] ∧ fs.node? q = none ∧ fs.node? q.dropLast = some .directory
  | .adrift => False

/-- Where a stretch ends, there stands what it has led to. -/
theorem Stretches.stands {last : AtEnd} {trail todo : List String} {r : Stretch} {lead : Lead}
    (h : Stretches fs last trail todo r) (hdir : fs.node? trail.reverse = some .directory)
    (hr : r = .done lead) : fs.Stands last lead := by
  induction h with
  | nil =>
      cases hr
      exact ⟨.directory, hdir, by simp [Node.kind]⟩
  | dot _ ih => exact ih hdir hr
  | up _ ih => exact ih (node?_tail hdir) hr
  | into _ hnode _ ih => exact ih hnode hr
  | arrived _ hnode hkind =>
      cases hr
      refine ⟨_, hnode, fun hlink => ?_⟩
      rcases hkind with hfile | ⟨-, hkept⟩
      · cases hlink.symm.trans hfile
      · exact hkept
  | vacant _ hfree =>
      cases hr
      refine ⟨by simp, hfree, ?_⟩
      rwa [List.reverse_cons, List.dropLast_concat]
  | tooLong | missing | blocked | crossing => cases hr

/-! ### Over links -/

/-- How a path is followed to where it leads, one link after another. -/
inductive Follows (fs : FileSystem) (last : AtEnd) :
    (links : Nat) → (here : Place) → (todo : List String) → Lead → Prop
  /-- No link has to be followed. -/
  | done {links : Nat} {here : Place} {todo : List String} {lead : Lead}
      (directory : fs.node? here = some .directory)
      (stretch : fs.Stretches last here.reverse todo (.done lead)) :
      Follows fs last links here todo lead
  /-- The path goes on where the first link leads. -/
  | crossing {left : Nat} {here base : Place} {todo rest : List String} {target : Path}
      {lead : Lead}
      (directory : fs.node? here = some .directory)
      (stretch : fs.Stretches last here.reverse todo (.crossing base target rest))
      (noSlash : (last = .filled && rest.isEmpty && target.endsInSlash) = false)
      (on : Follows fs last left (start base target) (steps target ++ rest) lead) :
      Follows fs last (left + 1) here todo lead

/-- Following a path succeeds, from a directory, in two ways: it comes to an end before a link has
to be followed, or it goes on where the first such link leads. -/
theorem follow_eq_ok_cases {last : AtEnd} {links : Nat} {here : Place} {todo : List String}
    {lead : Lead} :
    fs.follow last links here todo = .ok lead ↔
      fs.node? here = some .directory ∧
        (fs.stretch last here.reverse todo = .done lead ∨
          ∃ base target rest left, links = left + 1 ∧
            fs.stretch last here.reverse todo = .crossing base target rest ∧
            (last = .filled && rest.isEmpty && target.endsInSlash) = false ∧
            fs.follow last left (start base target) (steps target ++ rest) = .ok lead) := by
  rw [← isDirectoryAt_iff, follow]
  cases fs.isDirectoryAt here with
  | false => simp
  | true =>
      simp only [Bool.not_true, Bool.false_eq_true, if_false, true_and]
      have hstretch : fs.stretch last here.reverse todo =
          fs.advance last here.reverse (fs.contents here) todo := by
        rw [stretch, List.reverse_reverse]
      rw [hstretch]
      cases fs.advance last here.reverse (fs.contents here) todo with
      | done lead' => simp
      | failed fault => simp
      | crossing base target rest =>
          cases links with
          | zero => simp
          | succ left =>
              simp only [Nat.add_right_cancel_iff, Stretch.crossing.injEq, reduceCtorEq, false_or]
              cases hslash : last = .filled && rest.isEmpty && target.endsInSlash with
              | false =>
                  simp only [Bool.false_eq_true, if_false]
                  constructor
                  · intro h
                    exact ⟨base, target, rest, left, rfl, ⟨rfl, rfl, rfl⟩, hslash, h⟩
                  · rintro ⟨_, _, _, _, rfl, ⟨rfl, rfl, rfl⟩, -, h⟩
                    exact h
              | true =>
                  constructor
                  · intro h
                    rw [if_pos rfl] at h
                    split at h <;> cases h
                  · rintro ⟨_, _, _, _, -, ⟨rfl, rfl, rfl⟩, hnot, -⟩
                    rw [hslash] at hnot
                    cases hnot

/-- **Where a path leads is where it is followed to.** -/
theorem follow_eq_ok_iff {last : AtEnd} {links : Nat} {here : Place} {todo : List String}
    {lead : Lead} :
    fs.follow last links here todo = .ok lead ↔ fs.Follows last links here todo lead := by
  constructor
  · intro h
    induction links using Nat.strongRecOn generalizing here todo with
    | ind links ih =>
        obtain ⟨hdir, hdone | ⟨base, target, rest, left, rfl, hcross, hslash, hon⟩⟩ :=
          follow_eq_ok_cases.mp h
        · exact .done hdir (stretch_eq_iff.mp hdone)
        · exact .crossing hdir (stretch_eq_iff.mp hcross) hslash
            (ih left (Nat.lt_succ_self left) hon)
  · intro h
    induction h with
    | done hdir hdone => exact follow_eq_ok_cases.mpr ⟨hdir, .inl (stretch_eq_iff.mpr hdone)⟩
    | crossing hdir hcross hslash _ ih =>
        exact follow_eq_ok_cases.mpr
          ⟨hdir, .inr ⟨_, _, _, _, rfl, stretch_eq_iff.mpr hcross, hslash, ih⟩⟩

/-- Paths are followed from directories. -/
theorem Follows.from_directory {last : AtEnd} {links : Nat} {here : Place} {todo : List String}
    {lead : Lead} (h : fs.Follows last links here todo lead) : fs.node? here = some .directory := by
  cases h with
  | done hdir => exact hdir
  | crossing hdir => exact hdir

/-- **Where a path ends, there stands what it has led to.** -/
theorem follow_stands {last : AtEnd} {links : Nat} {here : Place} {todo : List String} {lead : Lead}
    (h : fs.follow last links here todo = .ok lead) : fs.Stands last lead := by
  rw [follow_eq_ok_iff] at h
  induction h with
  | done hdir hdone => exact hdone.stands (by rwa [List.reverse_reverse]) rfl
  | crossing _ _ _ _ ih => exact ih

variable {last : AtEnd} {links : Nat} {here q : Place} {todo : List String}

/-- A free name that a path leads to is free, and stands in a directory. -/
theorem follow_vacant (h : fs.follow last links here todo = .ok (.vacant q)) :
    q ≠ [] ∧ fs.node? q = none ∧ fs.node? q.dropLast = some .directory := follow_stands h

/-- A path arrives at a node, which is a link only if those are kept. -/
theorem follow_arrived (h : fs.follow last links here todo = .ok (.arrived q)) :
    ∃ n, fs.node? q = some n ∧ (n.kind = .link → last = .kept) := follow_stands h

/-- No path that is followed from a directory ends in one that is gone. -/
theorem follow_ne_adrift (last : AtEnd) (links : Nat) (here : Place) (todo : List String) :
    fs.follow last links here todo ≠ .ok .adrift := fun h => follow_stands h

end FileSystem

end RealmBoot
