import RealmBoot.Proofs.FreeNames
import RealmBoot.Proofs.WalkOrder

/-!
# Copies of Trees

What a path denotes, and what all the longer paths denote that continue it by names, is a tree in
which links are replaced by what they lead to; where one directory is reached by several links, it
is there several times. A copy of the tree has at each place what the path with the same names
denotes.

A copy is made from copies of what its directory lists, one beside the other. That nothing but these
stands in it afterwards rests on what a path denotes that is one name longer: something in the
directory that the shorter one leads to, under that name.

## Main results

* `FileSystem.stands_of_stat_child`: what it takes for a path that is one name longer to denote
  something.
* `FileSystem.CopiedFrom.of_file`, `FileSystem.CopiedFrom.of_directory`: copies of files and of
  directories.
* `FileSystem.exists_copies`: what is copied one after another is copied side by side.
* `Walk.Sighting.Valid.settled`: what a walk takes something for that can be followed.
* `Walk.holds_of_allFrom`: what a walk comes to can be looked at one by one.
-/

namespace RealmBoot

/-- A node without the time of a file, which a copy does not keep. -/
def Node.timeless : Node → Node
  | .file bytes _ => .file bytes (.at 0)
  | .link target => .link target
  | .directory => .directory

namespace FileSystem

variable {base fs fs' fs₁ fs₂ : FileSystem} {p : Path} {q r : Place} {s : String}
  {names rel : List String} {n : Node}

/-! ### What longer paths denote -/

/-- What a path denotes, without the time of a file. -/
def denoted? (fs : FileSystem) (p : Path) : Option Node := (fs.stat p).toOption.map Node.timeless

/-- What can be looked at is denoted, its time aside. -/
theorem denoted?_of_stat (h : fs.stat p = .ok n) : fs.denoted? p = some n.timeless := by
  rw [denoted?, h]
  rfl

/-- What cannot be looked at is not denoted. -/
theorem denoted?_of_not_stat (h : ∀ n, fs.stat p ≠ .ok n) : fs.denoted? p = none := by
  rw [denoted?]
  cases hstat : fs.stat p with
  | error e => rfl
  | ok n => exact absurd hstat (h n)

/-- A path starts where the one with a name more starts. -/
theorem isAdrift_child_eq (hp : p.text ≠ "") (hs : Location.IsName s) :
    fs.isAdrift (p.child s) = fs.isAdrift p := by
  rw [isAdrift, isAdrift, Path.isAbsolute_child hs hp, decide_eq_true hp,
    decide_eq_true (Path.text_child_ne_empty hs)]

/-- A path that leads somewhere leads somewhere when a link at its end is kept. -/
theorem exists_kept (h : fs.place p = .ok q) : ∃ r, fs.lead .kept p = .ok (.arrived r) := by
  obtain ⟨hcheck, hadrift, hfollow⟩ := lead_eq_arrived_iff.mp (place_eq_ok_iff.mp h)
  by_contra hnone
  have hkept : ∀ r, fs.follow .kept linkLimit (start fs.workLocation.names p) (steps p) ≠
      .ok (.arrived r) :=
    fun r hr => hnone ⟨r, lead_eq_arrived_iff.mpr ⟨hcheck, hadrift, hr⟩⟩
  rw [follow_followed fun r target hr => absurd hr (hkept r)] at hfollow
  exact hkept q hfollow

/-- **What is denoted with a name more stands in a directory** that the path without it leads to. -/
theorem stands_of_stat_child (hp : p.text ≠ "") (hadrift : fs.isAdrift p = false)
    (hs : Location.IsName s) (h : fs.stat (p.child s) = .ok n) :
    ∃ q, fs.place p = .ok q ∧ fs.node? q = some .directory ∧ fs.node? (q ++ [s]) ≠ none := by
  have hadrift' := (isAdrift_child_eq hp hs).trans hadrift
  rcases look_cases hadrift' with ⟨e, hstat, -⟩ | ⟨r, -, hplace, -⟩
  · cases hstat.symm.trans h
  obtain ⟨hcheck, -, hfollow⟩ := lead_eq_arrived_iff.mp (place_eq_ok_iff.mp hplace)
  have hstart : start fs.workLocation.names (p.child s) = start fs.workLocation.names p := by
    rw [start, start, Path.isAbsolute_child hs hp]
  rw [hstart, steps, Path.endsInSlash_child hs, Path.segments_child hs] at hfollow
  obtain ⟨q, left, hthrough, hlast⟩ := through_of_append (by simp) hfollow
  refine ⟨q, place_eq_ok_iff.mpr ?_, hthrough.directory, fun hfree => ?_⟩
  · exact lead_of_segments (checkPath_of_child hp hs hcheck) hadrift hthrough.arrives
      hthrough.directory
  · -- nothing stands under the name, so that no link does either
    have hlink : fs.NoLinkOn .followed q [s] := by
      intro rel hrel hne _ target hn
      obtain rfl : rel = [s] := by
        cases rel with
        | nil => exact absurd rfl hne
        | cons t rel => simpa using hrel
      rw [hfree] at hn
      cases hn
    rcases follow_names (by simpa using hs) hlink hlast with harrived | hvacant
    · cases harrived
      obtain ⟨m, hm, -⟩ := follow_arrived hlast
      rw [hfree] at hm
      cases hm
    · cases hvacant

/-- Below what is no directory no longer path denotes anything. -/
theorem denoted?_below (hp : p.text ≠ "") (hadrift : fs.isAdrift p = false)
    (hdir : ∀ q, fs.place p = .ok q → fs.node? q ≠ some .directory) (hrel : rel ≠ [])
    (hnames : ∀ s ∈ rel, Location.IsName s) : fs.denoted? (rel.foldl Path.child p) = none := by
  have hchild : ∀ s ∈ rel, ∀ n, fs.stat (p.child s) ≠ .ok n := by
    intro s hs n hstat
    obtain ⟨q, hplace, hq, -⟩ := stands_of_stat_child hp hadrift (hnames s hs) hstat
    exact hdir q hplace hq
  induction rel generalizing p with
  | nil => exact absurd rfl hrel
  | cons s rel ih =>
      have hs := hnames s List.mem_cons_self
      have hnot := hchild s List.mem_cons_self
      cases rel with
      | nil => exact denoted?_of_not_stat hnot
      | cons t rel =>
          have hp' := Path.text_child_ne_empty (p := p) hs
          have hadrift' := (isAdrift_child_eq hp hs).trans hadrift
          have hdir' : ∀ q, fs.place (p.child s) = .ok q → fs.node? q ≠ some .directory := by
            intro q hplace hq
            rcases look_cases hadrift' with ⟨e, -, -, hnoplace⟩ | ⟨r, m, -, -, hstat, -⟩
            · exact hnoplace q hplace
            · exact hnot m hstat
          refine ih hp' hadrift' hdir' (by simp)
            (fun t ht => hnames t (List.mem_cons_of_mem _ ht)) ?_
          intro t ht m hstat
          obtain ⟨q, hplace, hq, -⟩ := stands_of_stat_child hp' hadrift'
            (hnames t (List.mem_cons_of_mem _ ht)) hstat
          exact hdir' q hplace hq

/-! ### Copies -/

/-- What lies in a directory does not lie on the way to it. -/
theorem not_child_above (q : Place) (s : String) : ¬ q ++ [s] <+: q := by
  intro h
  have hlength := h.length_le
  rw [List.length_append, List.length_singleton] at hlength
  omega

/-- The tree that a path denotes was copied to a place, and nothing was changed elsewhere. -/
structure CopiedFrom (base : FileSystem) (p : Path) (q : Place) (fs fs' : FileSystem) : Prop where
  /-- What does not lie at the place or below it is as it was. -/
  elsewhere : ∀ r, ¬ q <+: r → fs'.node? r = fs.node? r
  /-- What lies there is what the paths denote. -/
  copied : ∀ rel, (∀ s ∈ rel, Location.IsName s) →
    (fs'.node? (q ++ rel)).map Node.timeless = base.denoted? (rel.foldl Path.child p)

/-- The trees of some names behind a path were copied to the places with these names, and nothing
was changed elsewhere. -/
structure CopiedBelow (base : FileSystem) (p : Path) (q : Place) (names : List String)
    (fs fs' : FileSystem) : Prop where
  /-- What does not lie at one of the places or below it is as it was. -/
  elsewhere : ∀ r, (∀ s ∈ names, ¬ q ++ [s] <+: r) → fs'.node? r = fs.node? r
  /-- What lies there is what the paths denote. -/
  copied : ∀ s ∈ names, ∀ rel, (∀ t ∈ rel, Location.IsName t) →
    (fs'.node? (q ++ s :: rel)).map Node.timeless = base.denoted? (rel.foldl Path.child (p.child s))

/-- One tree more is copied before the others. -/
theorem CopiedBelow.cons (h₁ : CopiedFrom base (p.child s) (q ++ [s]) fs fs₁)
    (h₂ : CopiedBelow base p q names fs₁ fs₂) (hs : s ∉ names) :
    CopiedBelow base p q (s :: names) fs fs₂ where
  elsewhere r hr := by
    rw [h₂.elsewhere r fun t ht => hr t (List.mem_cons_of_mem _ ht),
      h₁.elsewhere r (hr s List.mem_cons_self)]
  copied t ht rel hrel := by
    rcases List.mem_cons.mp ht with rfl | ht
    · have hkept : fs₂.node? (q ++ t :: rel) = fs₁.node? (q ++ t :: rel) := by
        refine h₂.elsewhere _ fun u hu hbelow => hs ?_
        rw [List.prefix_append_right_inj, List.cons_prefix_cons] at hbelow
        exact hbelow.1 ▸ hu
      rw [hkept, List.append_cons]
      exact h₁.copied rel hrel
    · exact h₂.copied t ht rel hrel

/-- **What is copied one after another is copied side by side,** if each copying needs no more than
what the ones before it keep: an invariant, the directory, and its own free name. -/
theorem exists_copies {ε : Type} {I : FileSystem → Prop} {copy : String × Kind → Action ε Unit}
    {entries : List (String × Kind)} (hdistinct : entries.Pairwise (·.1 ≠ ·.1))
    (hcopy : ∀ e ∈ entries, ∀ fs, I fs → fs.node? q = some .directory →
      fs.node? (q ++ [e.1]) = none → ∃ fs', outcome (copy e) fs = (.ok (), fs') ∧ I fs' ∧
        CopiedFrom base (p.child e.1) (q ++ [e.1]) fs fs')
    (hfs : I fs) (hdir : fs.node? q = some .directory)
    (hfree : ∀ e ∈ entries, fs.node? (q ++ [e.1]) = none) :
    ∃ fs', outcome (entries.forM copy) fs = (.ok (), fs') ∧ I fs' ∧
      CopiedBelow base p q (entries.map (·.1)) fs fs' := by
  induction entries generalizing fs with
  | nil => exact ⟨fs, rfl, hfs, fun _ _ => rfl, by simp⟩
  | cons e entries ih =>
      obtain ⟨hother, hdistinct⟩ := List.pairwise_cons.mp hdistinct
      obtain ⟨fs₁, hfirst, hfs₁, hcopied⟩ :=
        hcopy e List.mem_cons_self fs hfs hdir (hfree e List.mem_cons_self)
      have hdir₁ : fs₁.node? q = some .directory := by
        rw [hcopied.elsewhere q (not_child_above q e.1), hdir]
      have hfree₁ : ∀ e' ∈ entries, fs₁.node? (q ++ [e'.1]) = none := by
        intro e' he'
        rw [hcopied.elsewhere _ fun hprefix => hother e' he' ?_]
        · exact hfree e' (List.mem_cons_of_mem _ he')
        · rw [List.prefix_append_right_inj] at hprefix
          exact (List.cons_prefix_cons.mp hprefix).1
      obtain ⟨fs₂, hrest, hfs₂, hbelow⟩ :=
        ih hdistinct (fun e' he' => hcopy e' (List.mem_cons_of_mem _ he')) hfs₁ hdir₁ hfree₁
      refine ⟨fs₂, (outcome_bind_of_ok hfirst).trans hrest, hfs₂, .cons hcopied hbelow ?_⟩
      intro hmem
      obtain ⟨e', he', hsame⟩ := List.mem_map.mp hmem
      exact hother e' he' hsame.symm

/-- **The copy of a file** is a file with its bytes, and nothing lies below it. -/
theorem CopiedFrom.of_file {bytes : ByteArray} {time time' : Stamp} (hp : p.text ≠ "")
    (hadrift : base.isAdrift p = false) (hstat : base.stat p = .ok (.file bytes time))
    (hwritten : fs.WrittenAt q bytes time' fs') : CopiedFrom base p q fs fs' where
  elsewhere r hr := by
    refine hwritten.elsewhere r ?_
    rintro rfl
    exact hr List.prefix_rfl
  copied rel hrel := by
    by_cases hnil : rel = []
    · subst hnil
      rw [List.append_nil, hwritten.stands, List.foldl_nil, denoted?_of_stat hstat]
      rfl
    · have hnothing : fs'.node? (q ++ rel) = none := by
        cases hn : fs'.node? (q ++ rel) with
        | none => rfl
        | some n =>
            have habove := node?_parent hnil hn
            rw [hwritten.stands] at habove
            cases habove
      rw [hnothing, denoted?_below hp hadrift (fun r hr hdir => ?_) hnil hrel]
      · rfl
      · obtain ⟨r', hr', hfile⟩ := stat_eq_file_iff.mp hstat
        cases hr.symm.trans hr'
        cases hdir.symm.trans hfile

/-- **The copy of a directory** is a directory with the copies of what it lists. Under a name that
is not listed nothing is copied, and nothing is denoted. -/
theorem CopiedFrom.of_directory (hp : p.text ≠ "") (hadrift : base.isAdrift p = false)
    (hplace : base.place p = .ok r) (hr : base.node? r = some .directory)
    (hlisted : ∀ s, base.node? (r ++ [s]) ≠ none → s ∈ names)
    (hq : q ≠ []) (habove : fs.node? q.dropLast = some .directory)
    (hbelow : CopiedBelow base p q names (fs.put q .directory) fs') :
    CopiedFrom base p q fs fs' := by
  have hput : ∀ r, (fs.put q .directory).node? r =
      if q <+: r then if r = q then some .directory else none else fs.node? r :=
    fun r => node?_put hq habove
  constructor
  · intro r hr
    rw [hbelow.elsewhere r fun s _ hprefix => hr ((List.prefix_append _ _).trans hprefix), hput,
      if_neg hr]
  · intro rel hrel
    cases rel with
    | nil =>
        have hdirectory : fs'.node? q = some .directory := by
          rw [hbelow.elsewhere q fun s _ => not_child_above q s, hput]
          simp
        have hstat : base.stat p = .ok .directory := by
          rcases look_cases hadrift with ⟨e, -, -, hnoplace⟩ | ⟨r', n, hplace', hn, hstat, -⟩
          · exact absurd hplace (hnoplace r)
          · cases hplace.symm.trans hplace'
            cases hr.symm.trans hn
            exact hstat
        rw [List.append_nil, hdirectory, List.foldl_nil, denoted?_of_stat hstat]
        rfl
    | cons s rel =>
        by_cases hs : s ∈ names
        · exact hbelow.copied s hs rel fun t ht => hrel t (List.mem_cons_of_mem _ ht)
        · have hname := hrel s List.mem_cons_self
          have hnothing : fs'.node? (q ++ s :: rel) = none := by
            rw [hbelow.elsewhere _ fun t ht hprefix => hs ?_, hput,
              if_pos (List.prefix_append _ _), if_neg (by simp)]
            rw [List.prefix_append_right_inj, List.cons_prefix_cons] at hprefix
            exact hprefix.1 ▸ ht
          have hnot : ∀ n, base.stat (p.child s) ≠ .ok n := by
            intro n hstat
            obtain ⟨r', hplace', -, hstands⟩ := stands_of_stat_child hp hadrift hname hstat
            cases hplace.symm.trans hplace'
            exact hs (hlisted s hstands)
          have hdenoted : base.denoted? (rel.foldl Path.child (p.child s)) = none := by
            by_cases hnil : rel = []
            · rw [hnil]
              exact denoted?_of_not_stat hnot
            · have hadrift' := (isAdrift_child_eq hp hname).trans hadrift
              refine denoted?_below (Path.text_child_ne_empty hname) hadrift' (fun r' hr' _ => ?_)
                hnil fun t ht => hrel t (List.mem_cons_of_mem _ ht)
              rcases look_cases hadrift' with ⟨e, -, -, hnoplace⟩ | ⟨-, n, -, -, hstat, -⟩
              · exact hnoplace r' hr'
              · exact hnot n hstat
          rw [hnothing, List.foldl_cons, hdenoted]
          rfl

end FileSystem

namespace Walk

open FileSystem

variable {fs fs' : FileSystem} {root : Path} {m : Sighting} {n : Node} {q : Place}

/-! ### What can be followed -/

/-- The path of what a walk comes to can be followed if it is not too long. -/
theorem Meets.checkPath (hnamed : fs.Named) (h : Meets fs root m)
    (hsize : m.path.text.utf8ByteSize ≤ pathLimit) : checkPath m.path = .ok () := by
  obtain ⟨q, hlead, hreach⟩ := h
  have hnull : '\x00' ∉ m.path.text.toList := by
    clear hsize
    induction hreach with
    | refl => exact noNull_of_checkPath (lead_eq_arrived_iff.mp hlead).1
    | tail _ hstep ih =>
        cases hstep with
        | @into r s n' hplace hnode =>
            have hname := hnamed _ n' hnode s (by simp)
            exact (noNull_child hname.isName).mpr ⟨ih, hname.noNull⟩
  obtain ⟨n, hvalid⟩ := Meets.exists_valid hnamed ⟨q, hlead, hreach⟩
  exact checkPath_eq_ok_iff.mpr ⟨hnull, hvalid.nonempty, hsize⟩

/-- **What can be followed is taken for what it leads to**, a file or a directory. -/
theorem Sighting.Valid.settled (h : m.Valid fs n) (hcheck : FileSystem.checkPath m.path = .ok ())
    (hlink : n.kind = .link → ∃ n', fs.stat m.path = .ok n') (hnoloop : ¬ m.Loops fs) :
    ∃ q n', fs.place m.path = .ok q ∧ fs.node? q = some n' ∧ fs.stat m.path = .ok n' ∧
      n'.kind ≠ .link ∧ settle fs m.trail m.path n.kind = .ok n'.kind := by
  by_cases hkind : n.kind = .link
  · obtain ⟨n', hstat⟩ := hlink hkind
    rcases look_cases h.anchored with ⟨e, hfailed, -⟩ | ⟨q, n'', hplace, hn, hstat, -, hnolink⟩
    · cases hfailed.symm.trans (hlink hkind).choose_spec
    refine ⟨q, n'', hplace, hn, hstat, hnolink, ?_⟩
    cases n with
    | file bytes time => cases hkind
    | directory => cases hkind
    | link target =>
        rcases h.link_cases with ⟨e, -, hfailed, -⟩ | ⟨q', bytes, time, hfile, hplace', hq', -⟩ |
          ⟨q', hplace', hq', -, ⟨hloops, -⟩ | ⟨-, hopen, -⟩⟩
        · cases hfailed.symm.trans hstat
        · cases hplace.symm.trans hplace'
          cases hn.symm.trans hq'
          exact hfile
        · exact absurd hloops hnoloop
        · cases hplace.symm.trans hplace'
          cases hn.symm.trans hq'
          exact hopen
  · have hplace : fs.place m.path = .ok m.place :=
      place_eq_ok_iff.mpr (lead_eq_arrived_iff.mpr ⟨hcheck, h.anchored, h.arrives hkind⟩)
    rcases look_cases h.anchored with ⟨e, -, -, hnoplace⟩ | ⟨q, n', hplace', hn, hstat, -⟩
    · exact absurd hplace (hnoplace m.place)
    cases hplace.symm.trans hplace'
    cases h.stands.symm.trans hn
    refine ⟨m.place, n, hplace, h.stands, hstat, hkind, ?_⟩
    cases n with
    | file bytes time => rfl
    | directory => rfl
    | link target => exact absurd rfl hkind

/-- What something is taken for stays so while nothing but new things are added. -/
theorem settle_of_grows {trail : Trail} {path : Path} (h : Grows (fun _ => False) fs fs')
    (hplace : fs.place path = .ok q) (hq : fs.node? q = some n) (kind : Kind) :
    settle fs' trail path kind = settle fs trail path kind := by
  have hlead := place_eq_ok_iff.mp hplace
  have hlead' := h.lead hlead
  have hq' := (h.keeps hq).resolve_right fun hw => hw.1
  have hstat : fs'.stat path = fs.stat path := by
    rw [stat, stat, hlead, hlead']
    simp [bind, Except.bind, nodeAt, hq, hq']
  have hsame : fs'.place path = fs.place path :=
    (place_eq_ok_iff.mpr hlead').trans hplace.symm
  cases kind with
  | file => rfl
  | directory => rfl
  | link => simp only [settle, hstat, hsame]

/-! ### Looking at all that is met -/

/-- What stands in the directory that something is or leads to. -/
def next (fs : FileSystem) (m : Sighting) : List Sighting :=
  match fs.place m.path with
  | .ok q => (fs.children q).map fun e =>
      ⟨enter fs m.trail m.path, m.path.child e.1, q ++ [e.1]⟩
  | .error _ => []

/-- A walk steps to what stands in the directory it is at. -/
theorem mem_next_of_step {m' : Sighting} (h : Step fs m m') : m' ∈ next fs m := by
  have hplace : ∃ q, fs.place m.path = .ok q := by
    cases h with
    | into hplace _ => exact ⟨_, hplace⟩
  obtain ⟨q, hplace⟩ := hplace
  obtain ⟨e, he, rfl⟩ := (step_iff_of_place hplace).mp h
  rw [next, hplace]
  exact List.mem_map.mpr ⟨e, he, rfl⟩

/-- Whether something holds of all that can be come to, and all of that lies less deep than
given. -/
def allFrom (fs : FileSystem) (holds : Sighting → Bool) : (depth : Nat) → Sighting → Bool
  | 0, _ => false
  | depth + 1, m => holds m && (next fs m).all (allFrom fs holds depth)

/-- **What a walk comes to can be looked at one by one** if it is not deep. -/
theorem holds_of_allFrom {holds : Sighting → Bool} {depth : Nat} {m' : Sighting}
    (h : allFrom fs holds depth m = true) (hreach : Relation.ReflTransGen (Step fs) m m') :
    holds m' = true := by
  induction depth generalizing m with
  | zero => cases h
  | succ depth ih =>
      rw [allFrom, Bool.and_eq_true, List.all_eq_true] at h
      rcases Relation.ReflTransGen.cases_head hreach with rfl | ⟨m₁, hstep, hreach⟩
      · exact h.1
      · exact ih (h.2 m₁ (mem_next_of_step hstep)) hreach

end Walk

end RealmBoot
