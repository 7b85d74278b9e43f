import RealmBoot.Path.Location

/-!
# File Trees

What a directory holds is a list of names, each with a file, a symbolic link, or a directory that
holds things in turn. A *place* is the list of names on the way from the directory at the top to
something in it, links not counted. As a tree has nothing outside its directories, whatever stands
at a place stands in a directory.

Only the first entry of a name counts, so two lists of entries may say the same; what is asked of
contents never depends on the order of their entries.

This is less than what a disk holds. There are no owners and no permissions, so nothing is ever
refused to the one who asks. There is nothing but regular files, symbolic links and directories: no
devices, pipes or sockets. Every node stands in one directory under one name, so a file has no
second name that is not a link. Of times there are only those of files: a directory has none, and
neither has a link.

* `Contents.node?_set_of_not_prefix`: what is set at a place changes nothing elsewhere.
* `Contents.at?_set`: what is found at a place, and below it, after something was set there.
-/

namespace RealmBoot

/-- The names on the way from the top to a node, links not counted. -/
abbrev Place := List String

/-- The modification time of a file. -/
inductive Stamp where
  /-- A time that was set, in seconds. -/
  | at (seconds : Int)
  /-- The time of a write; no two writes have the same. -/
  | written (tick : Nat)
deriving DecidableEq, Repr, Inhabited

/-- A file, a link, or a directory with all that it holds. -/
inductive FileTree where
  /-- A regular file. -/
  | file (bytes : ByteArray) (modified : Stamp)
  /-- A symbolic link with its text. -/
  | link (target : Path)
  /-- A directory. -/
  | directory (entries : List (String × FileTree))
deriving Inhabited

/-- Files are compared by their bytes. -/
instance decidableEqBytes : DecidableEq ByteArray := ByteArray.instDecidableEq

/-- What stands at a place, without what it holds. -/
inductive Node where
  /-- A regular file. -/
  | file (bytes : ByteArray) (modified : Stamp)
  /-- A symbolic link with its text. -/
  | link (target : Path)
  /-- A directory. -/
  | directory
deriving DecidableEq, Inhabited

/-- The kinds of nodes. -/
inductive Kind where
  | file
  | link
  | directory
deriving DecidableEq, Repr, Inhabited

/-- The kind of a node. -/
def Node.kind : Node → Kind
  | file .. => .file
  | link .. => .link
  | directory => .directory

/-- The node at the top of a tree. -/
def FileTree.node : FileTree → Node
  | file bytes modified => .file bytes modified
  | link target => .link target
  | directory _ => .directory

/-- The tree of a node that holds nothing. -/
def Node.tree : Node → FileTree
  | file bytes modified => .file bytes modified
  | link target => .link target
  | directory => .directory []

/-- The node of the tree of a node is that node. -/
@[simp] theorem Node.node_tree (n : Node) : n.tree.node = n := by cases n <;> rfl

/-- What a directory holds. -/
abbrev Contents := List (String × FileTree)

namespace Contents

/-- What is found at a place. -/
def at? : Contents → Place → Option FileTree
  | cs, [] => some (.directory cs)
  | cs, name :: rest =>
    match cs.lookup name with
    | some (.directory sub) => at? sub rest
    | some t => if rest = [] then some t else none
    | none => none

/-- The node at a place. -/
def node? (cs : Contents) (p : Place) : Option Node := (cs.at? p).map (·.node)

/-- The contents with something under a name, or with nothing under it. -/
def setEntry (cs : Contents) (name : String) (t? : Option FileTree) : Contents :=
  cs.filter (·.1 ≠ name) ++ t?.toList.map (name, ·)

/-- The contents with something at a place, or with nothing there. Where no directory leads to the
place, nothing changes. -/
def set (t? : Option FileTree) : Place → Contents → Contents
  | [], cs => cs
  | [name], cs => cs.setEntry name t?
  | name :: next :: rest, cs =>
    match cs.lookup name with
    | some (.directory sub) => cs.setEntry name (some (.directory (set t? (next :: rest) sub)))
    | _ => cs

/-- The names with the kinds of their nodes, in increasing order. -/
def listing (cs : Contents) : List (String × Kind) :=
  (OrderedSet.ofList (cs.map (·.1))).toList.filterMap fun name =>
    (cs.lookup name).map fun t => (name, t.node.kind)

/-- Taking the entries of a name out leaves the other names alone. -/
theorem lookup_filter (cs : Contents) (name other : String) (h : other ≠ name) :
    (cs.filter (·.1 ≠ name)).lookup other = cs.lookup other := by
  induction cs with
  | nil => rfl
  | cons e cs ih =>
    obtain ⟨n, t⟩ := e
    by_cases hn : n = name
    · subst hn
      have : (other == n) = false := by simpa using h
      simpa [List.filter_cons, List.lookup_cons, this] using ih
    · by_cases ho : other = n
      · subst ho
        simp [hn]
      · have : (other == n) = false := by simpa using ho
        simpa [List.filter_cons, hn, List.lookup_cons, this] using ih

/-- After its entries are taken out, a name is free. -/
theorem lookup_filter_self (cs : Contents) (name : String) :
    (cs.filter (·.1 ≠ name)).lookup name = none := by
  induction cs with
  | nil => rfl
  | cons e cs ih =>
    obtain ⟨n, t⟩ := e
    by_cases hn : n = name
    · simpa [List.filter_cons, hn] using ih
    · have : (name == n) = false := by simpa using Ne.symm hn
      simpa [List.filter_cons, hn, List.lookup_cons, this] using ih

/-- What stands under a name after an entry was set. -/
@[simp] theorem lookup_setEntry (cs : Contents) (name other : String) (t? : Option FileTree) :
    (cs.setEntry name t?).lookup other = if other = name then t? else cs.lookup other := by
  unfold setEntry
  rw [List.lookup_append]
  by_cases h : other = name
  · subst h
    rw [lookup_filter_self]
    cases t? <;> simp
  · rw [lookup_filter cs name other h, if_neg h]
    have : (other == name) = false := by simpa using h
    cases t? <;> simp [List.lookup_cons, this]

/-- What is set at a place changes no node anywhere but there and below. -/
theorem node?_set_of_not_prefix {t? : Option FileTree} {p q : Place} {cs : Contents}
    (h : ¬ p <+: q) : (cs.set t? p).node? q = cs.node? q := by
  induction p generalizing cs q with
  | nil => exact absurd List.nil_prefix h
  | cons name rest ih =>
    cases q with
    | nil => simp [node?, at?, FileTree.node]
    | cons other q =>
      cases rest with
      | nil =>
        have ho : other ≠ name := fun e => h (by simp [e])
        simp [set, node?, at?, ho]
      | cons next rest =>
        unfold set
        split
        · next sub hs =>
          by_cases ho : other = name
          · subst ho
            have : ¬ (next :: rest) <+: q := fun hp => h (by simpa using hp)
            simpa [node?, at?, hs] using ih this
          · simp [node?, at?, ho]
        · rfl

/-- What is found at a place, or below it, after something was set there. -/
theorem at?_set {t? : Option FileTree} {p r : Place} {cs : Contents} (hp : p ≠ [])
    (h : cs.node? p.dropLast = some .directory) :
    (cs.set t? p).at? (p ++ r) =
      match t? with
      | some (.directory sub) => at? sub r
      | some t => if r = [] then some t else none
      | none => none := by
  induction p generalizing cs with
  | nil => exact absurd rfl hp
  | cons name rest ih =>
    cases rest with
    | nil => simp [set, at?]
    | cons next rest =>
      simp only [List.dropLast_cons_cons, node?, at?] at h
      split at h
      · next sub hs =>
        simp only [set, hs, List.cons_append, at?, lookup_setEntry, if_true]
        exact ih (by simp) h
      · next t ht hs =>
        split at h
        · cases t with
          | directory sub => exact absurd rfl (ht sub)
          | file => simp [FileTree.node] at h
          | link => simp [FileTree.node] at h
        · simp at h
      · simp at h

/-- Nothing is found at a place, or below it, after it was emptied. -/
theorem at?_set_none {p r : Place} {cs : Contents} (hp : p ≠ []) :
    (cs.set none p).at? (p ++ r) = none := by
  induction p generalizing cs with
  | nil => exact absurd rfl hp
  | cons name rest ih =>
    cases rest with
    | nil => simp [set, at?]
    | cons next rest =>
      unfold set
      split
      · simp only [List.cons_append, at?, lookup_setEntry, if_true]
        exact ih (by simp)
      · next hs =>
        simp only [List.cons_append, at?]
        split
        · next sub h => exact absurd h (hs sub)
        · simp
        · rfl

end Contents

end RealmBoot
