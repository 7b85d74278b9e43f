import RealmBoot.Launch.RunHome
import RealmBoot.Proofs.MakingDirectories
import RealmBoot.Proofs.WritingFiles

/-!
# Growth below a Home

A run home starts out as an empty directory, and what the program puts into a home it puts under
paths that continue the path of the home. This module fixes what it means for files to be added
below a home only, and shows for each of the operations used that it stays within that: a path that
continues the path of the home by names leads to the place with those names below the home, as long
as no link is met on the way, so that the operation changes nothing but that place.

## Main results

* `FileSystem.GrowsBelow.change`: a change of one place below the home is growth below it.
* `FileSystem.keeps_createDirs_below`, `FileSystem.GrowsBelow.write`: the operations that put
  directories and files into a home.
* `FileSystem.GrowsBelow.createLink`, `FileSystem.GrowsBelow.removeFile`: those for links.
-/

namespace RealmBoot

namespace FileSystem

/-- Fewer dots in two parts. -/
theorem FewerDots.exists_append {a b c : List String} (h : FewerDots (a ++ b) c) :
    ∃ c₁ c₂, c = c₁ ++ c₂ ∧ FewerDots a c₁ ∧ FewerDots b c₂ := by
  induction a generalizing c with
  | nil => exact ⟨[], c, rfl, .nil, h⟩
  | cons s a ih =>
      cases h with
      | keep _ h =>
          obtain ⟨c₁, c₂, rfl, ha, hb⟩ := ih h
          exact ⟨s :: c₁, c₂, rfl, .keep s ha, hb⟩
      | drop h =>
          obtain ⟨c₁, c₂, rfl, ha, hb⟩ := ih h
          exact ⟨c₁, c₂, rfl, .drop ha, hb⟩

/-- Where there are no dots there cannot be fewer. -/
theorem FewerDots.eq_of_isName {a b : List String} (h : FewerDots a b)
    (hnames : ∀ s ∈ a, Location.IsName s) : b = a := by
  induction h with
  | nil => rfl
  | keep s _ ih => rw [ih fun s hs => hnames s (List.mem_cons_of_mem _ hs)]
  | drop _ _ => exact absurd rfl (hnames "." List.mem_cons_self).2.1

end FileSystem

/-! ### Paths that continue a path -/

namespace Path

variable {b p home : Path} {names : List String} {s : String}

/-- The first path is the second one with names added at its end. -/
structure Continues (p home : Path) (names : List String) : Prop where
  /-- Both start at the root, or neither does. -/
  absolute : p.isAbsolute = home.isAbsolute
  /-- The names come last. -/
  segments : p.segments = home.segments ++ names
  /-- They are names. -/
  isName : ∀ s ∈ names, Location.IsName s

/-- A name in the home continues it by that name. -/
theorem continues_child (hhome : home.text ≠ "") (hs : Location.IsName s) :
    Continues (home.child s) home [s] where
  absolute := isAbsolute_child hs hhome
  segments := segments_child hs
  isName := by simpa using hs

/-- A path is continued by more names. -/
theorem Continues.join (h : Continues p home names) (hp : p.text ≠ "") {more : List String}
    (hmore : ∀ s ∈ more, Location.IsName s) :
    Continues (p.join ⟨Text.joined "/" more⟩) home (names ++ more) := by
  have hplain : ∀ s ∈ more, s ≠ "" ∧ '/' ∉ s.toList :=
    fun s hs => ⟨(hmore s hs).1, (hmore s hs).2.2.2⟩
  have hrelative := isAbsolute_joined hplain
  refine ⟨(isAbsolute_join hp hrelative).trans h.absolute, ?_, fun s hs => ?_⟩
  · rw [segments_join hrelative, h.segments, segments_joined hplain, List.append_assoc]
  · rcases List.mem_append.mp hs with hs | hs
    · exact h.isName s hs
    · exact hmore s hs

/-- A further name continues the path by that name. -/
theorem Continues.child (h : Continues p home names) (hp : p.text ≠ "")
    (hs : Location.IsName s) : Continues (p.child s) home (names ++ [s]) where
  absolute := (isAbsolute_child hs hp).trans h.absolute
  segments := by rw [segments_child hs, h.segments, List.append_assoc]
  isName t ht := by
    rcases List.mem_append.mp ht with ht | ht
    · exact h.isName t ht
    · rwa [List.mem_singleton.mp ht]

/-- A beginning of a path that continues another one is a beginning of that one, or continues it by
the first of the names. -/
theorem Begins.of_continues (hb : Begins b p) (hp : Continues p home names) :
    Begins b home ∨ ∃ lead rel, rel ≠ [] ∧ rel <+: names ∧
      FileSystem.FewerDots home.segments lead ∧ b.segments = lead ++ rel := by
  obtain ⟨before, after, hsplit, hfewer⟩ := hb.segments
  rw [hp.segments, List.append_eq_append_iff] at hsplit
  rcases hsplit with ⟨rel, rfl, hnames⟩ | ⟨rest, hhome, -⟩
  · obtain ⟨lead, rel', hb', hlead, hrel⟩ := hfewer.exists_append
    have hsame := hrel.eq_of_isName fun s hs =>
      hp.isName s (hnames ▸ List.mem_append_left _ hs)
    subst hsame
    cases rel' with
    | nil =>
        refine .inl ⟨hb.absolute.trans hp.absolute, home.segments, [], by simp, ?_⟩
        rw [hb', List.append_nil]
        exact hlead
    | cons s rel =>
        exact .inr ⟨lead, s :: rel, by simp, ⟨after, hnames.symm⟩, hlead, hb'⟩
  · exact .inl ⟨hb.absolute.trans hp.absolute, before, rest, hhome, hfewer⟩

end Path

namespace FileSystem

variable {base fs fs' : FileSystem} {last : AtEnd} {links : Nat} {here q : Place}
  {trail names rel : List String} {b home p : Path} {lead : Lead} {n : Node}
  {allowed : Place → Node → Prop}

/-! ### Names without links -/

/-- No link is met on the way along the names, unless it is the last and is kept. -/
def NoLinkOn (fs : FileSystem) (last : AtEnd) (q : Place) (names : List String) : Prop :=
  ∀ rel, rel <+: names → rel ≠ [] → (rel = names → last ≠ .kept) →
    ∀ target, fs.node? (q ++ rel) ≠ some (.link target)

/-- A stretch of names without links on them. -/
theorem Stretches.of_names {r : Stretch} (h : fs.Stretches last trail names r)
    (hnames : ∀ s ∈ names, Location.IsName s) (hlink : fs.NoLinkOn last trail.reverse names) :
    (∃ fault, r = .failed fault) ∨ r = .done (.arrived (trail.reverse ++ names)) ∨
      r = .done (.vacant (trail.reverse ++ names)) := by
  induction h with
  | nil trail => exact .inr (.inl (by simp))
  | dot => exact absurd rfl (hnames "." List.mem_cons_self).2.1
  | up => exact absurd rfl (hnames ".." List.mem_cons_self).2.2.1
  | tooLong | missing | blocked => exact .inl ⟨_, rfl⟩
  | arrived => exact .inr (.inl (by simp))
  | vacant => exact .inr (.inr (by simp))
  | @into trail rest s r _ _ _ ih =>
      have hplace : (s :: trail).reverse = trail.reverse ++ [s] := List.reverse_cons
      have hrest : fs.NoLinkOn last (s :: trail).reverse rest := by
        intro rel hrel hne hkept target
        rw [hplace, List.append_assoc]
        refine hlink (s :: rel) (by simpa using hrel) (by simp) (fun heq => ?_) target
        exact hkept (List.cons.inj heq).2
      have hon := ih (fun s hs => hnames s (List.mem_cons_of_mem _ hs)) hrest
      rwa [hplace, List.append_assoc] at hon
  | @crossing trail rest s target _ hnode hfollowed =>
      rw [List.reverse_cons] at hnode
      refine absurd hnode (hlink [s] (by simp) (by simp) (fun hend => ?_) target)
      exact hfollowed (List.cons.inj hend).2.symm

/-- **Names without links lead to their place, if anywhere.** -/
theorem follow_names (hnames : ∀ s ∈ names, Location.IsName s) (hlink : fs.NoLinkOn last q names)
    (h : fs.follow last links q names = .ok lead) :
    lead = .arrived (q ++ names) ∨ lead = .vacant (q ++ names) := by
  rw [← List.reverse_reverse q] at hlink
  cases follow_eq_ok_iff.mp h with
  | done _ hdone => simpa using hdone.of_names hnames hlink
  | crossing _ hcross => simpa using hcross.of_names hnames hlink

/-! ### Single changes -/

/-- The working directory is there, unless it was removed. -/
def WorkDirStands (fs : FileSystem) : Prop :=
  ∀ d, fs.workDir? = some d → fs.node? d = some .directory

/-- The working directory stands in every file system that has grown from one where it did. -/
theorem WorkDirStands.grows {written : Place → Prop} (h : base.WorkDirStands)
    (hgrows : Grows written base fs) : fs.WorkDirStands :=
  fun d hd => hgrows.directory (h d (hgrows.workDir.symm.trans hd))

/-- The working directory stays where it is if it is not removed. -/
theorem workDir?_remove (h : ∀ d, fs.workDir? = some d → ¬ q <+: d) :
    (fs.remove q).workDir? = fs.workDir? := by
  simp only [remove]
  cases hd : fs.workDir? with
  | none => rfl
  | some d =>
      have hspared := h d hd
      rw [← List.isPrefixOf_iff_prefix] at hspared
      simp [Option.filter, hspared]

/-- A link is made at a free name its path leads to. -/
theorem createLink_spec {target : Path} (h : fs.createLink target p = .ok fs') :
    checkPath p = .ok () ∧ fs.isAdrift p = false ∧ ∃ q, fs' = fs.put q (.link target) ∧
      fs.follow .kept linkLimit (start fs.workLocation.names p) p.segments = .ok (.vacant q) := by
  rw [createLink] at h
  obtain ⟨⟨⟩, -, h⟩ := except_bind_eq_ok_iff.mp h
  obtain ⟨⟨⟩, hcheck, h⟩ := except_bind_eq_ok_iff.mp h
  obtain ⟨lead, hlead, h⟩ := except_bind_eq_ok_iff.mp h
  rw [pursue] at hlead
  split_ifs at hlead with hadrift hdots
  · cases lead with
    | arrived q => cases h
    | adrift => cases h
    | vacant q =>
        dsimp only at h
        split_ifs at h
        cases h
        exact ⟨hcheck, by simpa using hadrift, q, rfl, hlead⟩
  · cases hlead
    cases h

/-- What is removed as a file stands where its path leads. -/
theorem removeFile_spec (h : fs.removeFile p = .ok fs') :
    ∃ q, fs' = fs.remove q ∧ fs.lead .kept p = .ok (.arrived q) := by
  rw [removeFile] at h
  obtain ⟨lead, hlead, h⟩ := except_bind_eq_ok_iff.mp h
  cases lead with
  | adrift => cases h
  | vacant r => cases h
  | arrived r =>
      dsimp only at h
      split_ifs at h
      cases h
      exact ⟨r, rfl, hlead⟩

/-! ### Growth below a home -/

/-- A path leads to an empty directory. -/
structure EmptyAt (fs : FileSystem) (home : Path) (q : Place) : Prop where
  /-- The path leads there. -/
  place : fs.place home = .ok q
  /-- A directory stands there. -/
  directory : fs.node? q = some .directory
  /-- Nothing stands in it. -/
  empty : ∀ rel, rel ≠ [] → fs.node? (q ++ rel) = none

/-- A path can be a home: it leads to an empty directory, or to a working directory that is gone,
in which nothing can be put. -/
def CanHouse (fs : FileSystem) (home : Path) : Prop :=
  fs.isAdrift home = true ∨ ∃ q, fs.EmptyAt home q

/-- The second file system has everything the first one has, and what it has besides lies below the
directory that a path leads to, and is allowed there. -/
structure GrowsBelow (allowed : Place → Node → Prop) (home : Path) (base fs : FileSystem) :
    Prop where
  /-- All that was there is there. -/
  grows : Grows (fun _ => False) base fs
  /-- What is added is below the directory. -/
  added : ∀ {p : Place} {n : Node}, fs.node? p = some n → base.node? p = some n ∨
    ∃ q rel, base.place home = .ok q ∧ p = q ++ rel ∧ allowed rel n

/-- The empty path is no path of a home. -/
theorem CanHouse.text_ne_empty (h : base.CanHouse home) : home.text ≠ "" := by
  rcases h with hadrift | ⟨q, hempty⟩
  · rw [isAdrift, Bool.and_eq_true, Bool.and_eq_true, decide_eq_true_eq] at hadrift
    exact hadrift.1.1
  · exact text_ne_empty_of_checkPath (lead_eq_arrived_iff.mp (place_eq_ok_iff.mp hempty.place)).1

namespace GrowsBelow

/-- Nothing has to be added. -/
theorem refl (allowed : Place → Node → Prop) (home : Path) (base : FileSystem) :
    GrowsBelow allowed home base base := ⟨.refl _ _, .inl⟩

/-- What may be added may be added where more may be. -/
theorem mono {allowed' : Place → Node → Prop} (h : GrowsBelow allowed home base fs)
    (hmono : ∀ rel n, allowed rel n → allowed' rel n) : GrowsBelow allowed' home base fs where
  grows := h.grows
  added hn := by
    rcases h.added hn with hold | ⟨q, rel, hplace, hp, hnew⟩
    · exact .inl hold
    · exact .inr ⟨q, rel, hplace, hp, hmono rel _ hnew⟩

/-- What stands below the home is allowed there. -/
theorem allowed_of_node? (h : GrowsBelow allowed home base fs) (hempty : base.EmptyAt home q)
    (hrel : rel ≠ []) (hn : fs.node? (q ++ rel) = some n) : allowed rel n := by
  rcases h.added hn with hold | ⟨q', rel', hplace, hp, hnew⟩
  · rw [hempty.empty rel hrel] at hold
    cases hold
  · rw [hempty.place] at hplace
    cases hplace
    rwa [List.append_cancel_left hp]

/-- **A change of one place below the home is growth below it,** if what stands there afterwards is
allowed. -/
theorem change (h : GrowsBelow allowed home base fs) (hempty : base.EmptyAt home q)
    (hrel : rel ≠ []) (hwork : fs'.workDir? = fs.workDir?)
    (houtside : ∀ p, ¬ q ++ rel <+: p → fs'.node? p = fs.node? p)
    (hinside : ∀ rest n, fs'.node? (q ++ rel ++ rest) = some n → allowed (rel ++ rest) n) :
    GrowsBelow allowed home base fs' where
  grows := by
    refine ⟨hwork.trans h.grows.workDir, fun {p n} hn => .inl ?_⟩
    have hspared : ¬ q ++ rel <+: p := by
      rintro ⟨rest, rfl⟩
      rw [List.append_assoc, hempty.empty _ (by simp [hrel])] at hn
      cases hn
    rw [houtside p hspared]
    exact (h.grows.keeps hn).resolve_right fun hw => hw.1
  added {p n} hn := by
    by_cases hp : q ++ rel <+: p
    · obtain ⟨rest, rfl⟩ := hp
      exact .inr ⟨q, rel ++ rest, hempty.place, List.append_assoc _ _ _, hinside rest n hn⟩
    · rw [houtside p hp] at hn
      exact h.added hn

/-- Something is put below the home. -/
theorem put (h : GrowsBelow allowed home base fs) (hempty : base.EmptyAt home q) (hrel : rel ≠ [])
    (hdir : fs.node? (q ++ rel).dropLast = some .directory) (hallowed : allowed rel n) :
    GrowsBelow allowed home base (fs.put (q ++ rel) n) := by
  have hput : ∀ p, (fs.put (q ++ rel) n).node? p =
      if q ++ rel <+: p then if p = q ++ rel then some n else none else fs.node? p :=
    fun p => node?_put (by simp [hrel]) hdir
  refine h.change hempty hrel rfl (fun p hp => ?_) fun rest m hm => ?_
  · rw [hput, if_neg hp]
  · rw [hput, if_pos (List.prefix_append _ _)] at hm
    split_ifs at hm with hsame
    cases hm
    rw [List.append_right_eq_self.mp hsame, List.append_nil]
    exact hallowed

/-- Something is removed below the home. The working directory is not there. -/
theorem remove (h : GrowsBelow allowed home base fs) (hempty : base.EmptyAt home q)
    (hrel : rel ≠ []) (hwork : base.WorkDirStands) :
    GrowsBelow allowed home base (fs.remove (q ++ rel)) := by
  have hremove : ∀ p, (fs.remove (q ++ rel)).node? p =
      if q ++ rel <+: p then none else fs.node? p := fun p => node?_remove (by simp [hrel])
  refine h.change hempty hrel ?_ (fun p hp => ?_) fun rest m hm => ?_
  · refine workDir?_remove fun d hd => ?_
    rintro ⟨rest, rfl⟩
    have hthere := hwork _ (h.grows.workDir.symm.trans hd)
    rw [List.append_assoc, hempty.empty _ (by simp [hrel])] at hthere
    cases hthere
  · rw [hremove, if_neg hp]
  · rw [hremove, if_pos (List.prefix_append _ _)] at hm
    cases hm

/-! ### Where paths below the home lead -/

/-- A path that starts where the path of the home does is not adrift if there is a home. -/
theorem exists_emptyAt (h : GrowsBelow allowed home base fs) (hhome : base.CanHouse home)
    (habsolute : b.isAbsolute = home.isAbsolute) (hcheck : checkPath b = .ok ())
    (hadrift : fs.isAdrift b = false) : ∃ q, base.EmptyAt home q := by
  refine hhome.resolve_left fun hgone => ?_
  rw [isAdrift, Bool.and_eq_true, Bool.and_eq_true] at hgone
  rw [isAdrift, decide_eq_true (text_ne_empty_of_checkPath hcheck), habsolute, h.grows.workDir,
    hgone.1.2, hgone.2] at hadrift
  cases hadrift

/-- The segments of the home lead through to it. -/
theorem through (h : GrowsBelow allowed home base fs) (hempty : base.EmptyAt home q) :
    ∃ left, fs.Through linkLimit (start fs.workLocation.names home) home.segments q left :=
  through_of_lead (h.grows.lead (place_eq_ok_iff.mp hempty.place))
    (h.grows.directory hempty.directory)

/-- No link stands on names below the home where none is allowed. -/
theorem noLinkOn (h : GrowsBelow allowed home base fs) (hempty : base.EmptyAt home q)
    (hlink : ∀ rel, rel <+: names → rel ≠ [] → (rel = names → last ≠ .kept) →
      ∀ target, ¬ allowed rel (.link target)) : fs.NoLinkOn last q names := by
  intro rel hrel hne hkept target hn
  exact hlink rel hrel hne hkept target (h.allowed_of_node? hempty hne hn)

/-- **A path that continues the path of the home leads to the place with those names below it,** if
anywhere. -/
theorem follow_continues (h : GrowsBelow allowed home base fs) (hempty : base.EmptyAt home q)
    (hcont : p.Continues home names) (hne : names ≠ []) (hlink : fs.NoLinkOn last q names)
    (hfollow : fs.follow last linkLimit (start fs.workLocation.names p) p.segments = .ok lead) :
    lead = .arrived (q ++ names) ∨ lead = .vacant (q ++ names) := by
  obtain ⟨left, hthrough⟩ := h.through hempty
  rw [start, hcont.absolute, hcont.segments] at hfollow
  rw [start] at hthrough
  rw [hthrough.onward last names hne] at hfollow
  exact follow_names hcont.isName hlink hfollow

/-- A beginning of the path of the home leads to something. -/
theorem follow_begins (h : GrowsBelow allowed home base fs) (hempty : base.EmptyAt home q)
    (hb : b.Begins home) :
    ∃ q', fs.follow .followed linkLimit (start fs.workLocation.names b) b.segments =
      .ok (.arrived q') := by
  obtain ⟨left, hthrough⟩ := h.through hempty
  obtain ⟨before, after, hsplit, hfewer⟩ := hb.segments
  rw [start, hb.absolute, ← start]
  have harrives := hthrough.arrives
  rw [hsplit] at harrives
  by_cases hafter : after = []
  · subst hafter
    rw [List.append_nil] at harrives
    exact ⟨q, follow_fewerDots hfewer harrives⟩
  · obtain ⟨q', left', hbefore, -⟩ := through_of_append hafter harrives
    exact ⟨q', follow_fewerDots hfewer hbefore.arrives⟩

/-! ### What is done below the home -/

/-- A directory that is made under a beginning of a path that continues the path of the home is made
below the home. The last name is free, so there is no link at the end that could be followed. -/
theorem createDir (h : GrowsBelow allowed home base fs) (hhome : base.CanHouse home)
    (hcont : p.Continues home names)
    (hallowed : ∀ rel, rel <+: names → rel ≠ [] →
      allowed rel .directory ∧ ∀ target, ¬ allowed rel (.link target))
    (hb : b.Begins p) (hcreate : fs.createDir b = .ok fs') :
    GrowsBelow allowed home base fs' := by
  obtain ⟨hcheck, hadrift, r, hfollow, rfl⟩ := createDir_eq_ok_iff.mp hcreate
  obtain ⟨q, hempty⟩ :=
    h.exists_emptyAt hhome (hb.absolute.trans hcont.absolute) hcheck hadrift
  have hfollowed : fs.follow .followed linkLimit (start fs.workLocation.names b) b.segments =
      .ok (.vacant r) := by
    refine Eq.trans (follow_followed fun q' target hq' => ?_) hfollow
    rw [hfollow] at hq'
    cases hq'
  rcases hb.of_continues hcont with hbegins | ⟨lead, rel, hne, hfirst, hlead, hsegments⟩
  · obtain ⟨q', harrived⟩ := h.follow_begins hempty hbegins
    rw [hfollowed] at harrived
    cases harrived
  · obtain ⟨left, hthrough⟩ := h.through hempty
    have hdir := h.grows.directory hempty.directory
    obtain ⟨left', hlead'⟩ := through_of_arrived (follow_fewerDots hlead hthrough.arrives) hdir
    have hlink : fs.NoLinkOn .followed q rel := h.noLinkOn hempty fun rel' hrel' hne' _ =>
      (hallowed rel' (hrel'.trans hfirst) hne').2
    rw [start, hb.absolute, hcont.absolute, ← start, hsegments, hlead'.onward _ _ hne] at hfollowed
    have hnames := fun s hs => hcont.isName s (hfirst.subset hs)
    rcases follow_names hnames hlink hfollowed with harrived | hvacant
    · cases harrived
    · cases hvacant
      exact h.put hempty hne (follow_vacant hfollow).2.2 (hallowed rel hfirst hne).1

end GrowsBelow

/-- **Making directories under a path that continues the path of the home is growth below it.** -/
theorem keeps_createDirs_below (hhome : base.CanHouse home) (hcont : p.Continues home names)
    (hallowed : ∀ rel, rel <+: names → rel ≠ [] →
      allowed rel .directory ∧ ∀ target, ¬ allowed rel (.link target)) :
    Keeps (GrowsBelow allowed home base) (createDirs p) := by
  refine keeps_createDirs_of_begins fun b hb fs fs' h hcreate => ?_
  exact h.createDir hhome hcont hallowed hb hcreate

/-! ### Files and links -/

namespace GrowsBelow

/-- What an operation puts under a path that continues the path of the home it puts below it. -/
theorem writePlace (h : GrowsBelow allowed home base fs) (hhome : base.CanHouse home)
    (hcont : p.Continues home names) (hne : names ≠ [])
    (hlink : ∀ rel, rel <+: names → rel ≠ [] → ∀ target, ¬ allowed rel (.link target))
    {r : Place} (hplace : fs.writePlace p = .ok r) :
    ∃ q, base.EmptyAt home q ∧ r = q ++ names ∧ fs.node? r.dropLast = some .directory := by
  obtain ⟨hcheck, hadrift, -, lead, hfollow, hlead⟩ := writePlace_eq_ok_iff.mp hplace
  have hdir := (writable_of_writePlace hplace).directory
  obtain ⟨q, hempty⟩ := h.exists_emptyAt hhome hcont.absolute hcheck hadrift
  refine ⟨q, hempty, ?_, hdir⟩
  have hnames := h.follow_continues hempty hcont hne
    (h.noLinkOn hempty fun rel hrel hne _ => hlink rel hrel hne) hfollow
  rcases hlead with rfl | ⟨rfl, -⟩
  · simpa using hnames
  · simpa using hnames

/-- **Writing a file under a path that continues the path of the home is growth below it.** The
clock of the writes goes on, which no place shows. -/
theorem write {bytes : ByteArray} (h : GrowsBelow allowed home base fs)
    (hhome : base.CanHouse home) (hcont : p.Continues home names) (hne : names ≠ [])
    (hallowed : ∀ time, allowed names (.file bytes time))
    (hlink : ∀ rel, rel <+: names → rel ≠ [] → ∀ target, ¬ allowed rel (.link target))
    (hwrite : fs.write p bytes = .ok fs') : GrowsBelow allowed home base fs' := by
  obtain ⟨r, hplace, hput⟩ := except_bind_eq_ok_iff.mp hwrite
  obtain ⟨q, hempty, rfl, hdir⟩ := h.writePlace hhome hcont hne hlink hplace
  cases hput
  have hput := h.put hempty hne hdir (hallowed (.written fs.ticks))
  exact ⟨⟨hput.grows.workDir, hput.grows.keeps⟩, hput.added⟩

/-- **Copying a file there is growth below the home.** -/
theorem copy {source : Path} (h : GrowsBelow allowed home base fs)
    (hhome : base.CanHouse home) (hcont : p.Continues home names) (hne : names ≠ [])
    (hallowed : ∀ bytes time, allowed names (.file bytes time))
    (hlink : ∀ rel, rel <+: names → rel ≠ [] → ∀ target, ¬ allowed rel (.link target))
    (hcopy : fs.copy source p = .ok fs') : GrowsBelow allowed home base fs' := by
  rw [FileSystem.copy] at hcopy
  obtain ⟨lead, -, hcopy⟩ := except_bind_eq_ok_iff.mp hcopy
  cases lead with
  | vacant r => cases hcopy
  | adrift => cases hcopy
  | arrived r =>
      dsimp only at hcopy
      split_ifs at hcopy
      · cases hcopy
      · obtain ⟨emptied, hemptied, hcopy⟩ := except_bind_eq_ok_iff.mp hcopy
        have h' := h.write hhome hcont hne (hallowed _) hlink hemptied
        split at hcopy
        · exact h'.write hhome hcont hne (hallowed _) hlink hcopy
        · cases hcopy

/-- **Making a link there is growth below the home.** -/
theorem createLink {target : Path} (h : GrowsBelow allowed home base fs)
    (hhome : base.CanHouse home) (hcont : p.Continues home names) (hne : names ≠ [])
    (hallowed : allowed names (.link target))
    (hlink : ∀ rel, rel <+: names → rel ≠ [] → rel ≠ names →
      ∀ target, ¬ allowed rel (.link target))
    (hcreate : fs.createLink target p = .ok fs') : GrowsBelow allowed home base fs' := by
  obtain ⟨hcheck, hadrift, r, rfl, hfollow⟩ := createLink_spec hcreate
  obtain ⟨q, hempty⟩ := h.exists_emptyAt hhome hcont.absolute hcheck hadrift
  have hnames := h.follow_continues hempty hcont hne (h.noLinkOn hempty
    fun rel hrel hne hkept => hlink rel hrel hne fun heq => hkept heq rfl) hfollow
  obtain rfl : r = q ++ names := by simpa using hnames
  exact h.put hempty hne (follow_vacant hfollow).2.2 hallowed

/-- **Removing a file or a link there is growth below the home,** from the files the home was
prepared in. -/
theorem removeFile (h : GrowsBelow allowed home base fs)
    (hhome : base.CanHouse home) (hcont : p.Continues home names) (hne : names ≠ [])
    (hslash : p.endsInSlash = false) (hwork : base.WorkDirStands)
    (hlink : ∀ rel, rel <+: names → rel ≠ [] → rel ≠ names →
      ∀ target, ¬ allowed rel (.link target))
    (hremove : fs.removeFile p = .ok fs') : GrowsBelow allowed home base fs' := by
  obtain ⟨r, rfl, hlead⟩ := removeFile_spec hremove
  obtain ⟨hcheck, hadrift, hfollow⟩ := lead_eq_arrived_iff.mp hlead
  obtain ⟨q, hempty⟩ := h.exists_emptyAt hhome hcont.absolute hcheck hadrift
  rw [steps, hslash] at hfollow
  have hnames := h.follow_continues hempty hcont hne (h.noLinkOn hempty
    fun rel hrel hne hkept => hlink rel hrel hne fun heq => hkept heq rfl) hfollow
  obtain rfl : r = q ++ names := by simpa using hnames
  exact h.remove hempty hne hwork

end GrowsBelow

end FileSystem

end RealmBoot
