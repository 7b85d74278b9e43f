import RealmBoot.Proofs.CopiedTrees
import RealmBoot.Proofs.Furnishing

/-!
# The Course of Copying Hooks

The tree of a hooks directory is copied into a home while it is walked. What is met is copied before
the walk goes on, so that every directory is there before what it holds, and each thing is copied to
the place with its own names below the home: a directory that is reached by several links is copied
in full for each of them.

Nothing of this is disturbed by the copying itself. What is added lies in the home, and as long as
that is not met on the walk, whatever the walk looks at is as it was at the start.

## Main results

* `RunHome.copyHook_directory`, `RunHome.copyHook_file`: one thing is copied where the directory for
  it is there.
* `RunHome.node?_outside`: what copying leaves alone.
* `RunHome.copies_from`: what is met is copied with all that lies below it.
-/

namespace RealmBoot

open FileSystem

namespace RunHome

variable {base cur : FileSystem} {home : RunHome} {hooks path : Path} {h q : Place}
  {m : Walk.Sighting} {n : Node} {names : List String}

/-! ### What hooks have to be like -/

/-- Nothing that is met below the hooks directory, links followed, is the home. -/
def Outside (fs : FileSystem) (home : RunHome) (hooks : Path) : Prop :=
  ∀ m q, Walk.Meets fs hooks m → fs.place m.path = .ok q → fs.place home.path ≠ .ok q

/-- A directory of hooks that can be walked to the end. -/
structure Followable (fs : FileSystem) (hooks : Path) : Prop where
  /-- It is a directory that holds something. -/
  nonempty : ∃ e es, fs.list hooks = .ok (e :: es)
  /-- Every link below it denotes a file or a directory. -/
  denotes : ∀ m, Walk.Meets fs hooks m → (∃ target, fs.node? m.place = some (.link target)) →
    ∃ n, fs.stat m.path = .ok n
  /-- None of them leads back to a directory that contains it. -/
  noLoop : ∀ m, Walk.Meets fs hooks m → ¬ m.Loops fs

/-- A home in which all hooks of a directory can be put. -/
structure Fits (fs : FileSystem) (home : RunHome) (hooks : Path) : Prop where
  /-- It is not a working directory that is gone. -/
  stands : fs.isAdrift home.path = false
  /-- No hook has too long a path. -/
  met : ∀ m, Walk.Meets fs hooks m → m.path.text.utf8ByteSize ≤ pathLimit
  /-- No hook gets too long a path. -/
  copied : ∀ m, Walk.Meets fs hooks m → ∀ rel, m.path.below? hooks = some rel →
    (home.hooksTarget.join rel).text.utf8ByteSize ≤ pathLimit

/-! ### Copying one thing -/

section CopyHook

variable (hempty : base.EmptyAt home.path h)
  (hgrown : GrowsBelow HookPlace home.path base cur)
  (hpath : path.components = hooks.components ++ names.map .name)
  (hnames : ∀ s ∈ names, NameAllowed s)
  (hsize : (home.hooksTarget.join ⟨Text.joined "/" names⟩).text.utf8ByteSize ≤ pathLimit)
  (habove : cur.node? (h ++ "init.groovy.d" :: names).dropLast = some .directory)
  (hfree : cur.node? (h ++ "init.groovy.d" :: names) = none)
include hempty hnames hsize

/-- The path of a copy continues that of the home, and can be followed. -/
theorem continues_copy :
    (home.hooksTarget.join ⟨Text.joined "/" names⟩).Continues home.path ("init.groovy.d" :: names) ∧
      checkPath (home.hooksTarget.join ⟨Text.joined "/" names⟩) = .ok () := by
  obtain ⟨hcheck, -, -⟩ := lead_eq_arrived_iff.mp (place_eq_ok_iff.mp hempty.place)
  have hhome := text_ne_empty_of_checkPath hcheck
  have hhooks := nameAllowed_hooks.isName
  refine ⟨(Path.continues_child hhome hhooks).join (Path.text_child_ne_empty hhooks)
    fun s hs => (hnames s hs).isName, ?_⟩
  obtain ⟨sep, -, htext⟩ := Path.exists_text_join (p := home.hooksTarget)
    (Path.isAbsolute_joined fun s hs => ⟨(hnames s hs).isName.1, (hnames s hs).isName.2.2.2⟩)
  have htarget : checkPath home.hooksTarget = .ok () := by
    refine checkPath_eq_ok_iff.mpr ⟨?_, Path.text_child_ne_empty hhooks, ?_⟩
    · exact (noNull_child hhooks).mpr ⟨noNull_of_checkPath hcheck, nameAllowed_hooks.noNull⟩
    · rw [htext, String.utf8ByteSize_append, String.utf8ByteSize_append] at hsize
      omega
  exact checkPath_join_names htarget hnames hsize

include hgrown hpath habove hfree

/-- **A directory is copied to its place** if the directory above it is there already. -/
theorem copyHook_directory :
    outcome (copyHook hooks home.hooksTarget path .directory) cur =
      (.ok (), cur.put (h ++ "init.groovy.d" :: names) .directory) := by
  obtain ⟨hcont, hcheck⟩ := continues_copy hempty hnames hsize
  have hallowed : ∀ s ∈ "init.groovy.d" :: names, NameAllowed s := by
    simpa using ⟨nameAllowed_hooks, hnames⟩
  rw [copyHook, Path.below?_of_components hpath]
  dsimp only
  rw [if_pos rfl]
  exact outcome_mapFailure_eq_ok_iff.mpr
    (hgrown.createDirs_free hempty hcont (by simp) hallowed habove hfree hcheck)

/-- **A file is copied to its place** if the directory above it is there already. -/
theorem copyHook_file {bytes : ByteArray} {time : Stamp} (hne : names ≠ [])
    (hplace : cur.place path = .ok q) (hq : cur.node? q = some (.file bytes time)) :
    ∃ cur' tick, outcome (copyHook hooks home.hooksTarget path .file) cur = (.ok (), cur') ∧
      cur.WrittenAt (h ++ "init.groovy.d" :: names) bytes (.written tick) cur' := by
  obtain ⟨hcont, hcheck⟩ := continues_copy hempty hnames hsize
  have hallowed : ∀ s ∈ "init.groovy.d" :: names, NameAllowed s := by
    simpa using ⟨nameAllowed_hooks, hnames⟩
  have hslash := Path.endsInSlash_join_names (p := home.hooksTarget) hne
    fun s hs => (hnames s hs).isName
  obtain ⟨cur', tick, hcopy, hwritten⟩ := hgrown.copy_free hempty hcont (by simp) hallowed habove
    hfree hcheck hslash hplace hq
  refine ⟨cur', tick, ?_, hwritten⟩
  rw [copyHook, Path.below?_of_components hpath]
  dsimp only
  rw [if_neg (by simp)]
  exact outcome_mapFailure_eq_ok_iff.mpr (outcome_change_of_ok hcopy)

end CopyHook

/-! ### Copying all that is met -/

/-- What does not lie in the directory of the hooks is as it was before hooks were copied. -/
theorem node?_outside (hgrown : GrowsBelow HookPlace home.path base cur) {p : Place}
    (hp : ∀ h, base.place home.path = .ok h → ¬ h ++ ["init.groovy.d"] <+: p) :
    cur.node? p = base.node? p := by
  cases hold : base.node? p with
  | some n => exact (hgrown.grows.keeps hold).resolve_right fun hw => hw.1
  | none =>
      cases hnew : cur.node? p with
      | none => rfl
      | some n =>
          rcases hgrown.added hnew with hsame | ⟨h, rel, hplace, rfl, hadded⟩
          · rw [hold] at hsame
            cases hsame
          · obtain ⟨more, rfl⟩ := hadded.below
            exact absurd ⟨more, by simp⟩ (hp h hplace)

/-- A directory that is not the home holds what it held before hooks were copied. -/
theorem node?_of_other (hhome : base.CanHouse home.path)
    (hgrown : GrowsBelow HookPlace home.path base cur) (hq : base.node? q = some .directory)
    (hother : base.place home.path ≠ .ok q) (s : String) :
    cur.node? (q ++ [s]) = base.node? (q ++ [s]) := by
  refine node?_outside hgrown fun h hplace hprefix => ?_
  obtain ⟨more, hsplit⟩ := hprefix
  have habove : q = h ++ ("init.groovy.d" :: more).dropLast := by
    rw [← List.dropLast_append_of_ne_nil (by simp), List.append_cons, hsplit, List.dropLast_concat]
  rcases hhome with hadrift | ⟨h', hempty⟩
  · have hanchored := (lead_eq_arrived_iff.mp (place_eq_ok_iff.mp hplace)).2.1
    rw [hadrift] at hanchored
    cases hanchored
  · cases hempty.place.symm.trans hplace
    by_cases hnil : ("init.groovy.d" :: more).dropLast = []
    · rw [hnil, List.append_nil] at habove
      exact hother (habove ▸ hplace)
    · rw [habove, hempty.empty _ hnil] at hq
      cases hq

/-- Something that is met is to be copied next: the directory above its copy is there, and its copy
is not. -/
structure Due (base : FileSystem) (home : RunHome) (hooks : Path) (h : Place) (cur : FileSystem)
    (m : Walk.Sighting) (n : Node) (names : List String) : Prop where
  /-- It is met. -/
  met : Walk.Meets base hooks m
  /-- It stands there. -/
  valid : m.Valid base n
  /-- The names lead to it from the hooks directory. -/
  path : m.path.components = hooks.components ++ names.map .name
  /-- They are allowed. -/
  allowed : ∀ s ∈ names, NameAllowed s
  /-- The hooks directory is one. -/
  root : names = [] → ∃ q, base.place m.path = .ok q ∧ base.node? q = some .directory
  /-- Nothing but hooks was added so far. -/
  grown : GrowsBelow HookPlace home.path base cur
  /-- Its copy has a directory to be in. -/
  above : cur.node? (h ++ "init.groovy.d" :: names).dropLast = some .directory
  /-- There is no copy yet. -/
  free : cur.node? (h ++ "init.groovy.d" :: names) = none

/-- A computation copies the tree that a path denotes to a place, and adds nothing but hooks. -/
def Copies (base : FileSystem) (home : RunHome) (p : Path) (q : Place) (cur : FileSystem)
    (copy : Action Failure Unit) : Prop :=
  ∃ cur', outcome copy cur = (.ok (), cur') ∧ GrowsBelow HookPlace home.path base cur' ∧
    base.CopiedFrom p q cur cur'

section Copies

variable (hnamed : base.Named) (hempty : base.EmptyAt home.path h)
  (hfits : Fits base home hooks) (hdue : Due base home hooks h cur m n names)
include hdue

include hnamed hfits in
/-- What is due is taken for what it leads to, and that is still there. -/
theorem Due.settled (hfollow : Followable base hooks) :
    ∃ q n', base.place m.path = .ok q ∧ base.node? q = some n' ∧ base.stat m.path = .ok n' ∧
      cur.place m.path = .ok q ∧ cur.node? q = some n' ∧ n'.kind ≠ .link ∧
      Walk.settle cur m.trail m.path n.kind = .ok n'.kind := by
  have hlink : n.kind = .link → ∃ n', base.stat m.path = .ok n' := by
    intro hkind
    cases n with
    | link target => exact hfollow.denotes m hdue.met ⟨target, hdue.valid.stands⟩
    | file bytes time => cases hkind
    | directory => cases hkind
  have hcheck := hdue.met.checkPath hnamed (hfits.met m hdue.met)
  obtain ⟨q, n', hplace, hq, hstat, hnolink, hsettle⟩ :=
    hdue.valid.settled hcheck hlink (hfollow.noLoop m hdue.met)
  refine ⟨q, n', hplace, hq, hstat, ?_, ?_, hnolink, ?_⟩
  · exact place_eq_ok_iff.mpr (hdue.grown.grows.lead (place_eq_ok_iff.mp hplace))
  · exact (hdue.grown.grows.keeps hq).resolve_right fun hw => hw.1
  · exact (Walk.settle_of_grows hdue.grown.grows hplace hq n.kind).trans hsettle

include hnamed in
/-- What a due directory lists is due once the directory is copied. -/
theorem Due.entry {fs : FileSystem} {e : String × Kind} (hplace : base.place m.path = .ok q)
    (he : e ∈ base.children q) (hgrown : GrowsBelow HookPlace home.path base fs)
    (habove : fs.node? (h ++ "init.groovy.d" :: names) = some .directory)
    (hfree : fs.node? (h ++ "init.groovy.d" :: names ++ [e.1]) = none) :
    ∃ n', n'.kind = e.2 ∧ Due base home hooks h fs
      ⟨Walk.enter base m.trail m.path, m.path.child e.1, q ++ [e.1]⟩ n' (names ++ [e.1]) := by
  obtain ⟨n', hvalid, hkind⟩ := hdue.valid.child hnamed hplace he
  have hname := hnamed _ _ hvalid.stands e.1 (by simp)
  have hlonger : h ++ "init.groovy.d" :: (names ++ [e.1]) =
      h ++ "init.groovy.d" :: names ++ [e.1] := by simp
  refine ⟨n', hkind, ?_⟩
  constructor
  case met =>
    obtain ⟨r, hlead, hreach⟩ := hdue.met
    exact ⟨r, hlead, hreach.tail ((Walk.step_iff_of_place hplace).mpr ⟨e, he, rfl⟩)⟩
  case valid => exact hvalid
  case path =>
    rw [Path.components_child hname.isName hdue.valid.nonempty, hdue.path, List.map_append,
      List.append_assoc]
    rfl
  case allowed =>
    intro s hs
    rcases List.mem_append.mp hs with hs | hs
    · exact hdue.allowed s hs
    · rwa [List.mem_singleton.mp hs]
  case root =>
    intro hnil
    simp at hnil
  case grown => exact hgrown
  case above => rwa [hlonger, List.dropLast_concat]
  case free => rwa [hlonger]

include hempty hfits

/-- **A due file is copied.** -/
theorem Due.copies_file {bytes : ByteArray} {time : Stamp} (hplace : base.place m.path = .ok q)
    (hq : base.node? q = some (.file bytes time))
    (hstat : base.stat m.path = .ok (.file bytes time)) :
    Copies base home m.path (h ++ "init.groovy.d" :: names) cur
      (copyHook hooks home.hooksTarget m.path .file) := by
  have hne : names ≠ [] := by
    intro hnil
    obtain ⟨q', hplace', hdir⟩ := hdue.root hnil
    cases hplace.symm.trans hplace'
    cases hq.symm.trans hdir
  have hsize := hfits.copied m hdue.met _ (Path.below?_of_components hdue.path)
  have hplace' := place_eq_ok_iff.mpr (hdue.grown.grows.lead (place_eq_ok_iff.mp hplace))
  have hq' := (hdue.grown.grows.keeps hq).resolve_right fun hw => hw.1
  obtain ⟨cur', tick, hcopied, hwritten⟩ := copyHook_file hempty hdue.grown hdue.path hdue.allowed
    hsize hdue.above hdue.free hne hplace' hq'
  have hgrown := keeps_copyHook (.inr ⟨h, hempty⟩) hdue.path hdue.allowed .file cur hdue.grown
  rw [hcopied] at hgrown
  exact ⟨cur', hcopied, hgrown, .of_file hdue.valid.nonempty hdue.valid.anchored hstat hwritten⟩

include hnamed

/-- **A due directory is copied** if all that is due in it is. It is not the home, so it still lists
what it listed at the start. -/
theorem Due.copies_directory (houtside : Outside base home hooks)
    (hplace : base.place m.path = .ok q) (hq : base.node? q = some .directory)
    {copy : String × Kind → Action Failure Unit}
    (hcopy : ∀ e ∈ base.children q, ∀ fs n', n'.kind = e.2 → Due base home hooks h fs
      ⟨Walk.enter base m.trail m.path, m.path.child e.1, q ++ [e.1]⟩ n' (names ++ [e.1]) →
      Copies base home (m.path.child e.1) (h ++ "init.groovy.d" :: names ++ [e.1]) fs (copy e)) :
    ∃ entries, cur.list m.path = .ok entries ∧
      Copies base home m.path (h ++ "init.groovy.d" :: names) cur
        (copyHook hooks home.hooksTarget m.path .directory >>= fun _ => entries.forM copy) := by
  have hsize := hfits.copied m hdue.met _ (Path.below?_of_components hdue.path)
  have hcopied := copyHook_directory hempty hdue.grown hdue.path hdue.allowed hsize hdue.above
    hdue.free
  have hgrown := keeps_copyHook (.inr ⟨h, hempty⟩) hdue.path hdue.allowed .directory cur hdue.grown
  rw [hcopied] at hgrown
  have hput : ∀ r, (cur.put (h ++ "init.groovy.d" :: names) .directory).node? r =
      if h ++ "init.groovy.d" :: names <+: r then
        if r = h ++ "init.groovy.d" :: names then some .directory else none
      else cur.node? r := fun r => node?_put (by simp) hdue.above
  have hsame := node?_of_other (.inr ⟨h, hempty⟩) hdue.grown hq
    (houtside m q hdue.met hplace)
  have hlist : cur.list m.path = .ok (cur.children q) := by
    rw [list, hdue.grown.grows.lead (place_eq_ok_iff.mp hplace)]
    simp [bind, Except.bind, isDirectoryAt_iff.mpr (hdue.grown.grows.directory hq), pure,
      Except.pure]
  have hdistinct : (cur.children q).Pairwise (·.1 ≠ ·.1) :=
    (pairwise_of_list hlist).imp fun hlt => String.ne_of_lt hlt
  have hentries : ∀ e ∈ cur.children q, ∀ fs, GrowsBelow HookPlace home.path base fs →
      fs.node? (h ++ "init.groovy.d" :: names) = some .directory →
      fs.node? (h ++ "init.groovy.d" :: names ++ [e.1]) = none →
      Copies base home (m.path.child e.1) (h ++ "init.groovy.d" :: names ++ [e.1]) fs (copy e) := by
    intro e he fs hfs habove hfree
    obtain ⟨n', hn', hkind⟩ := mem_children.mp he
    have he' : e ∈ base.children q := mem_children.mpr ⟨n', (hsame e.1).symm.trans hn', hkind⟩
    obtain ⟨n'', hkind', hdue'⟩ := hdue.entry hnamed hplace he' hfs habove hfree
    exact hcopy e he' fs n'' hkind' hdue'
  have hfree : ∀ e ∈ cur.children q, (cur.put (h ++ "init.groovy.d" :: names) .directory).node?
      (h ++ "init.groovy.d" :: names ++ [e.1]) = none := by
    intro e _
    rw [hput, if_pos (List.prefix_append _ _), if_neg (by simp)]
  obtain ⟨cur', hrest, hgrown', hbelow⟩ :=
    exists_copies hdistinct hentries hgrown (by rw [hput]; simp) hfree
  refine ⟨_, hlist, cur', (outcome_bind_of_ok hcopied).trans hrest, hgrown', ?_⟩
  refine .of_directory hdue.valid.nonempty hdue.valid.anchored hplace hq (fun s hs => ?_)
    (by simp) hdue.above hbelow
  obtain ⟨n', hn'⟩ := Option.ne_none_iff_exists'.mp hs
  exact List.mem_map.mpr ⟨(s, n'.kind), mem_children.mpr ⟨n', (hsame s).trans hn', rfl⟩, rfl⟩

omit hdue

/-- **What is due is copied with all that lies below it.** The induction is on the depth of the
walk, which no path outgrows. -/
theorem copies_from (houtside : Outside base home hooks) (hfollow : Followable base hooks)
    {depth : Nat} (hdepth : pathLimit + 2 ≤ m.path.text.utf8ByteSize + depth)
    (hdue : Due base home hooks h cur m n names) :
    Copies base home m.path (h ++ "init.groovy.d" :: names) cur
      (copyHooksFrom hooks home.hooksTarget depth m.trail m.path n.kind) := by
  induction depth generalizing m n names cur with
  | zero =>
      have hshort := hfits.met m hdue.met
      omega
  | succ depth ih =>
      obtain ⟨q, n', hplace, hq, hstat, hplace', -, hnolink, hsettle⟩ :=
        hdue.settled hnamed hfits hfollow
      have hlooked : ∀ {x : FileSystem → Action Failure Unit},
          Copies base home m.path (h ++ "init.groovy.d" :: names) cur (x cur) →
            Copies base home m.path (h ++ "init.groovy.d" :: names) cur (get >>= x) := by
        rintro x ⟨cur', hx, hcopied⟩
        exact ⟨cur', (outcome_bind_of_ok (outcome_get cur)).trans hx, hcopied⟩
      rw [copyHooksFrom]
      refine hlooked ?_
      rw [hsettle]
      cases n' with
      | link target => exact absurd rfl hnolink
      | file bytes time => exact hdue.copies_file hempty hfits hplace hq hstat
      | directory =>
          have henter : Walk.enter cur m.trail m.path = Walk.enter base m.trail m.path := by
            rw [Walk.enter, Walk.enter, hplace, hplace']
          obtain ⟨entries, hlist, hcopies⟩ := hdue.copies_directory hnamed hempty hfits houtside
            hplace hq fun e he fs n' hkind hdue' => by
              have hname := hnamed _ _ hdue'.valid.stands e.1 (by simp)
              have hlonger := Path.size_lt_child (p := m.path) hname.isName
              have hcopy := ih (by dsimp only; omega) hdue'
              rw [hkind] at hcopy
              simpa using hcopy
          dsimp only [Node.kind]
          rw [hlist, henter]
          exact hcopies

end Copies

end RunHome

end RealmBoot
