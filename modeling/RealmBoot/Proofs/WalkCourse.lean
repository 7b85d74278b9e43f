import Mathlib.Logic.Relation
import RealmBoot.Files.Walk
import RealmBoot.Proofs.LongerPaths

/-!
# The Course of a Walk

A walk is run with a bound on its depth, and says what it meets as a list of visits. Neither is how
one thinks of it. This module describes the same walk twice more and relates the three.

The *course* of a walk is its list of visits without the bound: a relation with one case for each
way a step can go. Every walk over a named file tree has a course, because the text of a path grows
with each level and no path that is too long can be listed.

The *sightings* of a walk are what lies below its root: each is something in a directory, under the
path that leads to it through directories and links to directories. A sighting is *sound* if it can
be stepped over or gone into. A walk is undisturbed exactly if all sightings are sound, and then the
files it meets are exactly the sightings that denote files.

## Main results

* `Walk.rootCourse_visits`: a walk comes to an end, whatever links there are.
* `Walk.RootCourse.undisturbed_iff`: nothing disturbs a walk exactly if every sighting is sound.
* `Walk.RootCourse.exists_file`, `Walk.RootCourse.mem_of_fileAt`: the files a walk meets.
-/

namespace RealmBoot

/-! ### Listings -/

/-- The names of a listing are those under which something stands. -/
theorem Contents.mem_listing {cs : Contents} {s : String} {kind : Kind} :
    (s, kind) ∈ cs.listing ↔ ∃ t, cs.lookup s = some t ∧ t.node.kind = kind := by
  have hname : ∀ {t}, cs.lookup s = some t → s ∈ cs.map (·.1) := by
    intro t ht
    induction cs with
    | nil => cases ht
    | cons e cs ih =>
        rw [List.lookup_cons] at ht
        cases hs : s == e.1 with
        | true => exact List.mem_cons.mpr (.inl (beq_iff_eq.mp hs))
        | false =>
            rw [hs] at ht
            exact List.mem_cons_of_mem _ (ih ht)
  simp only [listing, List.mem_filterMap, ← OrderedSet.mem_def, OrderedSet.mem_ofList]
  constructor
  · rintro ⟨s', -, hlook⟩
    cases ht : cs.lookup s' with
    | none => simp [ht] at hlook
    | some t =>
        simp only [ht, Option.map_some, Option.some.injEq, Prod.mk.injEq] at hlook
        obtain ⟨rfl, rfl⟩ := hlook
        exact ⟨t, ht, rfl⟩
  · rintro ⟨t, ht, rfl⟩
    exact ⟨s, hname ht, by simp [ht]⟩

namespace FileSystem

variable {fs : FileSystem} {q : Place} {s : String} {p : Path} {kind : Kind}

/-- What a directory lists is what stands in it. -/
theorem mem_children :
    (s, kind) ∈ fs.children q ↔ ∃ n, fs.node? (q ++ [s]) = some n ∧ n.kind = kind := by
  rw [children, Contents.mem_listing, node?_child]
  constructor
  · rintro ⟨t, ht, rfl⟩
    exact ⟨t.node, by rw [ht]; rfl, rfl⟩
  · rintro ⟨n, hn, rfl⟩
    obtain ⟨t, ht, rfl⟩ := Option.map_eq_some_iff.mp hn
    exact ⟨t, ht, rfl⟩

/-! ### What a path shows -/

/-- Looking at a path and listing it either fail alike, or the path leads to a node. -/
theorem look_cases (hadrift : fs.isAdrift p = false) :
    (∃ e, fs.stat p = .error e ∧ fs.list p = .error e ∧ ∀ q, fs.place p ≠ .ok q) ∨
      ∃ q n, fs.place p = .ok q ∧ fs.node? q = some n ∧ fs.stat p = .ok n ∧
        (n = .directory → fs.list p = .ok (fs.children q)) ∧ n.kind ≠ .link := by
  cases hlead : fs.lead .followed p with
  | error e =>
      refine .inl ⟨e, ?_, ?_, fun q hq => ?_⟩
      · rw [stat, hlead]; rfl
      · rw [list, hlead]; rfl
      · rw [place_eq_ok_iff, hlead] at hq; cases hq
  | ok lead =>
      cases lead with
      | vacant q' =>
          refine .inl ⟨.notFound, ?_, ?_, fun q hq => ?_⟩
          · rw [stat, hlead]; rfl
          · rw [list, hlead]; rfl
          · rw [place_eq_ok_iff, hlead] at hq; cases hq
      | adrift =>
          rw [FileSystem.lead] at hlead
          obtain ⟨⟨⟩, -, hpursue⟩ := except_bind_eq_ok_iff.mp hlead
          rw [pursue, hadrift] at hpursue
          exact absurd hpursue (follow_ne_adrift _ _ _ _)
      | arrived q =>
          obtain ⟨n, hn, hlink⟩ := follow_arrived (lead_eq_arrived_iff.mp hlead).2.2
          refine .inr ⟨q, n, place_eq_ok_iff.mpr hlead, hn, ?_, ?_, ?_⟩
          · rw [stat, hlead]
            simp [bind, Except.bind, nodeAt, hn]
          · rintro rfl
            rw [list, hlead]
            simp [bind, Except.bind, isDirectoryAt_iff.mpr hn, pure, Except.pure]
          · intro hkind
            cases hlink hkind

/-- What can be listed is a directory with what stands in it, or one that is gone. -/
theorem list_eq_ok {names : List (String × Kind)} (h : fs.list p = .ok names) :
    checkPath p = .ok () ∧
      ∀ e ∈ names, ∃ q n, fs.place p = .ok q ∧ fs.node? (q ++ [e.1]) = some n ∧ n.kind = e.2 := by
  rw [list] at h
  obtain ⟨lead, hlead, hnames⟩ := except_bind_eq_ok_iff.mp h
  have hcheck : checkPath p = .ok () := by
    rw [FileSystem.lead] at hlead
    obtain ⟨⟨⟩, hcheck, -⟩ := except_bind_eq_ok_iff.mp hlead
    exact hcheck
  refine ⟨hcheck, fun e he => ?_⟩
  cases lead with
  | vacant q => cases hnames
  | adrift =>
      cases hnames
      cases he
  | arrived q =>
      dsimp only at hnames
      split_ifs at hnames with hdir
      cases hnames
      obtain ⟨n, hn, hkind⟩ := mem_children.mp he
      exact ⟨q, n, place_eq_ok_iff.mpr hlead, hn, hkind⟩

end FileSystem

namespace Walk

variable {fs : FileSystem} {trail : Trail} {path root : Path} {kind : Kind} {visits : List Visit}

/-! ### The course of a walk -/

/-- The course of a walk from something of the given kind, found under `path` inside of `trail`. -/
inductive Course (fs : FileSystem) : Trail → Path → Kind → List Visit → Prop where
  /-- It cannot be looked at, or is a link to a directory that the walk is inside of. -/
  | failed {trail path kind f} (hsettle : settle fs trail path kind = .error f) :
      Course fs trail path kind [.failed f]
  /-- It is no directory. -/
  | leaf {trail path kind kind'} (hsettle : settle fs trail path kind = .ok kind')
      (hleaf : kind' ≠ .directory) : Course fs trail path kind [.entry path kind']
  /-- It is a directory that cannot be listed. -/
  | unlisted {trail path kind e} (hsettle : settle fs trail path kind = .ok .directory)
      (hlist : fs.list path = .error e) :
      Course fs trail path kind [.entry path .directory, .failed ⟨path, .fault e⟩]
  /-- It is a directory, and the walk goes on to each of its names in turn. -/
  | opened {trail path kind names} (below : String × Kind → List Visit)
      (hsettle : settle fs trail path kind = .ok .directory) (hlist : fs.list path = .ok names)
      (hbelow : ∀ e ∈ names,
        Course fs (enter fs trail path) (path.child e.1) e.2 (below e)) :
      Course fs trail path kind (.entry path .directory :: names.flatMap below)

/-- The course of a walk from a root, which may be missing. -/
inductive RootCourse (fs : FileSystem) (root : Path) : List Visit → Prop where
  | failed {e} (h : fs.linkStat root = .error e) : RootCourse fs root [.failed ⟨root, .fault e⟩]
  | found {n visits} (h : fs.linkStat root = .ok n) (hcourse : Course fs [] root n.kind visits) :
      RootCourse fs root visits

/-- A walk has one course. -/
theorem Course.unique {visits' : List Visit} (h : Course fs trail path kind visits)
    (h' : Course fs trail path kind visits') : visits = visits' := by
  induction h generalizing visits' with
  | failed hsettle =>
      cases h' with
      | failed hsettle' =>
          cases hsettle.symm.trans hsettle'
          rfl
      | leaf hsettle' => cases hsettle.symm.trans hsettle'
      | unlisted hsettle' => cases hsettle.symm.trans hsettle'
      | opened _ hsettle' => cases hsettle.symm.trans hsettle'
  | leaf hsettle hleaf =>
      cases h' with
      | failed hsettle' => cases hsettle.symm.trans hsettle'
      | leaf hsettle' =>
          cases hsettle.symm.trans hsettle'
          rfl
      | unlisted hsettle' =>
          cases hsettle.symm.trans hsettle'
          exact absurd rfl hleaf
      | opened _ hsettle' =>
          cases hsettle.symm.trans hsettle'
          exact absurd rfl hleaf
  | unlisted hsettle hlist =>
      cases h' with
      | failed hsettle' => cases hsettle.symm.trans hsettle'
      | leaf hsettle' hleaf =>
          cases hsettle.symm.trans hsettle'
          exact absurd rfl hleaf
      | unlisted _ hlist' =>
          cases hlist.symm.trans hlist'
          rfl
      | opened _ _ hlist' => cases hlist.symm.trans hlist'
  | opened below hsettle hlist _ ih =>
      cases h' with
      | failed hsettle' => cases hsettle.symm.trans hsettle'
      | leaf hsettle' hleaf =>
          cases hsettle.symm.trans hsettle'
          exact absurd rfl hleaf
      | unlisted _ hlist' => cases hlist.symm.trans hlist'
      | opened below' _ hlist' hbelow' =>
          cases hlist.symm.trans hlist'
          have hsame : List.map below _ = List.map below' _ :=
            List.map_congr_left fun e he => ih e he (hbelow' e he)
          rw [List.flatMap_def, List.flatMap_def, hsame]

/-- A walk from a root has one course. -/
theorem RootCourse.unique {visits' : List Visit} (h : RootCourse fs root visits)
    (h' : RootCourse fs root visits') : visits = visits' := by
  cases h with
  | failed hroot =>
      cases h' with
      | failed hroot' =>
          cases hroot.symm.trans hroot'
          rfl
      | found hroot' => cases hroot.symm.trans hroot'
  | found hroot hcourse =>
      cases h' with
      | failed hroot' => cases hroot.symm.trans hroot'
      | found hroot' hcourse' =>
          cases hroot.symm.trans hroot'
          exact hcourse.unique hcourse'

/-- The bound on the depth of a walk is never reached: with each level the text of the path grows,
and a path that is as long as the bound cannot be listed. -/
theorem course_visitsFrom (hnamed : fs.Named) {depth : Nat} (hdepth : 0 < depth)
    (hsize : FileSystem.pathLimit + 2 ≤ path.text.utf8ByteSize + depth) :
    Course fs trail path kind (visitsFrom fs depth trail path kind) := by
  induction depth generalizing trail path kind with
  | zero => exact absurd hdepth (Nat.lt_irrefl 0)
  | succ depth ih =>
      rw [visitsFrom]
      cases hsettle : settle fs trail path kind with
      | error f => exact .failed hsettle
      | ok kind' =>
          cases kind' with
          | file => exact .leaf hsettle (by simp)
          | link => exact .leaf hsettle (by simp)
          | directory =>
              cases hlist : fs.list path with
              | error e => exact .unlisted hsettle hlist
              | ok names =>
                  obtain ⟨hcheck, hnames⟩ := FileSystem.list_eq_ok hlist
                  have hshort := FileSystem.size_le_of_checkPath hcheck
                  refine .opened (fun e => visitsFrom fs depth (enter fs trail path)
                    (path.child e.1) e.2) hsettle hlist fun e he => ?_
                  obtain ⟨q, n, -, hn, -⟩ := hnames e he
                  have hname := hnamed _ n hn e.1 (by simp)
                  have hgrows := Path.size_lt_child (p := path) hname.isName
                  exact ih (by omega) (by omega)

/-- **Every walk comes to an end**, whatever links there are: its visits are those of a course. -/
theorem rootCourse_visits (hnamed : fs.Named) (root : Path) :
    RootCourse fs root (Walk.visits fs root) := by
  rw [Walk.visits]
  cases hroot : fs.linkStat root with
  | error e => exact .failed hroot
  | ok n =>
      refine .found hroot (course_visitsFrom hnamed (Nat.succ_pos _) ?_)
      have hpos : 0 < root.text.utf8ByteSize := by
        rw [FileSystem.linkStat, FileSystem.lead] at hroot
        obtain ⟨lead, hlead, -⟩ := except_bind_eq_ok_iff.mp hroot
        obtain ⟨⟨⟩, hcheck, -⟩ := except_bind_eq_ok_iff.mp hlead
        refine Nat.pos_of_ne_zero fun hzero => ?_
        exact FileSystem.text_ne_empty_of_checkPath hcheck
          (String.utf8ByteSize_eq_zero_iff.mp hzero)
      rw [depthLimit]
      omega

/-! ### Sightings -/

/-- Something that lies below the root of a walk. -/
structure Sighting where
  /-- The directories on the way to it, innermost first. -/
  trail : Trail
  /-- The path that leads to it. -/
  path : Path
  /-- The place where it stands, which is that of the link itself if it is one. -/
  place : Place

/-- From something to what stands in the directory that it is or leads to. -/
inductive Step (fs : FileSystem) : Sighting → Sighting → Prop where
  | into {m : Sighting} {q : Place} {s : String} {n : Node} (hplace : fs.place m.path = .ok q)
      (hnode : fs.node? (q ++ [s]) = some n) :
      Step fs m ⟨(m.path, q) :: m.trail, m.path.child s, q ++ [s]⟩

/-- What can be reached from a root by going through directories and links to directories. -/
def Meets (fs : FileSystem) (root : Path) (m : Sighting) : Prop :=
  ∃ q, fs.lead .kept root = .ok (.arrived q) ∧ Relation.ReflTransGen (Step fs) ⟨[], root, q⟩ m

/-- Whether something could be looked at or is missing. -/
def Bearable (look : Except Fault Node) : Prop := (∃ n, look = .ok n) ∨ look = .error .notFound

namespace Sighting

/-- A link that leads back to a directory on the way to it. -/
def Loops (fs : FileSystem) (m : Sighting) : Prop :=
  (∃ target, fs.node? m.place = some (.link target)) ∧ ∃ d ∈ m.trail, fs.place m.path = .ok d.2

/-- What can be stepped over or gone into. Of a file no more is asked than that it is there: its
directory tells that it is a file, and it is not looked at. -/
structure Sound (fs : FileSystem) (m : Sighting) : Prop where
  /-- A directory or link can be looked at or leads to something missing. -/
  bearable : (∀ bytes time, fs.node? m.place ≠ some (.file bytes time)) → Bearable (fs.stat m.path)
  /-- It does not lead back. -/
  noLoop : ¬ m.Loops fs

/-- The file that something is, or is a link to, stands at a place. -/
def FileAt (fs : FileSystem) (m : Sighting) (q : Place) : Prop :=
  (∃ bytes time, fs.node? q = some (.file bytes time)) ∧
    (q = m.place ∨ (∃ target, fs.node? m.place = some (.link target)) ∧ fs.place m.path = .ok q)

/-- What holds of everything a walk can come to. -/
structure Valid (fs : FileSystem) (m : Sighting) (n : Node) : Prop where
  /-- It stands at its place. -/
  stands : fs.node? m.place = some n
  /-- Its path is not empty. -/
  nonempty : m.path.text ≠ ""
  /-- Its path does not start from a directory that is gone. -/
  anchored : fs.isAdrift m.path = false
  /-- Unless it is a link, its path is followed to where it stands. -/
  arrives : n.kind ≠ .link → fs.follow .followed FileSystem.linkLimit
    (FileSystem.start fs.workLocation.names m.path) (FileSystem.steps m.path) =
      .ok (.arrived m.place)
  /-- The way to it goes through directories. -/
  open_trail : ∀ d ∈ m.trail, fs.node? d.2 = some .directory

variable {m m' : Sighting} {n : Node}

/-- Unless it is a link, its path leads nowhere but to where it stands. -/
theorem Valid.straight {q : Place} (h : Valid fs m n) (hlink : n.kind ≠ .link)
    (hplace : fs.place m.path = .ok q) : q = m.place := by
  have hfollow := (FileSystem.lead_eq_arrived_iff.mp (FileSystem.place_eq_ok_iff.mp hplace)).2.2
  rw [h.arrives hlink] at hfollow
  cases hfollow
  rfl

/-- The root of a walk, if anything is there. -/
theorem valid_root {q : Place} (h : fs.lead .kept root = .ok (.arrived q)) :
    ∃ n, Valid fs ⟨[], root, q⟩ n ∧ fs.linkStat root = .ok n := by
  obtain ⟨hcheck, hadrift, hfollow⟩ := FileSystem.lead_eq_arrived_iff.mp h
  obtain ⟨n, hn, -⟩ := FileSystem.follow_arrived hfollow
  refine ⟨n, ⟨hn, FileSystem.text_ne_empty_of_checkPath hcheck, hadrift, fun hlink => ?_,
    by simp⟩, ?_⟩
  · rw [FileSystem.follow_followed, hfollow]
    intro q' target hq'
    cases hfollow.symm.trans hq'
    rw [hn]
    rintro ⟨⟩
    exact hlink rfl
  · rw [FileSystem.linkStat, h]
    simp [bind, Except.bind, FileSystem.nodeAt, hn]

/-- What stands in a directory that a walk comes to. -/
theorem Valid.step (hnamed : fs.Named) (h : Valid fs m n) (hstep : Step fs m m') :
    ∃ n', Valid fs m' n' := by
  cases hstep with
  | @into q s n' hplace hnode =>
      have hdir : fs.node? q = some .directory := FileSystem.node?_parent (by simp) hnode
      have hname := hnamed _ n' hnode s (by simp)
      have hlead := FileSystem.place_eq_ok_iff.mp hplace
      refine ⟨n', hnode, Path.text_child_ne_empty hname.isName,
        FileSystem.isAdrift_child hlead hname.isName, fun hlink => ?_, ?_⟩
      · obtain ⟨left, hchild⟩ := FileSystem.follow_child hlead hdir hname.isName
        rw [hchild, FileSystem.follow_name hname hnode hlink]
      · intro d hd
        rcases List.mem_cons.mp hd with rfl | hd
        · exact hdir
        · exact h.open_trail d hd

/-- Nothing stands in what is no directory. -/
theorem not_step (h : ∀ q, fs.place m.path = .ok q → fs.node? q ≠ some .directory) :
    ¬ Step fs m m' := by
  rintro ⟨hplace, hnode⟩
  exact h _ hplace (FileSystem.node?_parent (by simp) hnode)

/-- Only a link or a directory can fail to be looked at, and it is sound if it is missing then. -/
theorem sound_iff_of_stat_error {e : Fault} (hstat : fs.stat m.path = .error e)
    (hplace : ∀ q, fs.place m.path ≠ .ok q)
    (hfile : ∀ bytes time, fs.node? m.place ≠ some (.file bytes time)) :
    m.Sound fs ↔ e = .notFound := by
  constructor
  · intro hsound
    rcases hsound.bearable hfile with ⟨n, hn⟩ | hmissing
    · rw [hstat] at hn
      cases hn
    · rw [hstat] at hmissing
      cases hmissing
      rfl
  · rintro rfl
    refine ⟨fun _ => .inr hstat, ?_⟩
    rintro ⟨-, d, -, hback⟩
    exact hplace d.2 hback

/-- What a walk makes of a link: it leads nowhere, to a file, or to a directory, in which case the
walk is either inside of it or not. -/
theorem Valid.link_cases {target : Path} (h : Valid fs m (.link target)) :
    (∃ e, settle fs m.trail m.path .link = .error ⟨m.path, .fault e⟩ ∧
      fs.stat m.path = .error e ∧ ∀ q, fs.place m.path ≠ .ok q) ∨
    (∃ q bytes time, settle fs m.trail m.path .link = .ok .file ∧ fs.place m.path = .ok q ∧
      fs.node? q = some (.file bytes time) ∧ Bearable (fs.stat m.path)) ∨
    ∃ q, fs.place m.path = .ok q ∧ fs.node? q = some .directory ∧ Bearable (fs.stat m.path) ∧
      ((m.Loops fs ∧ ∃ ancestor,
          settle fs m.trail m.path .link = .error ⟨m.path, .loop ancestor⟩) ∨
        (¬ m.Loops fs ∧ settle fs m.trail m.path .link = .ok .directory ∧
          fs.list m.path = .ok (fs.children q))) := by
  rcases FileSystem.look_cases h.anchored with
    ⟨e, hstat, -, hplace⟩ | ⟨q, n, hplace, hn, hstat, hlist, hlink⟩
  · refine .inl ⟨e, ?_, hstat, hplace⟩
    rw [settle, hstat]
  · have hbearable : Bearable (fs.stat m.path) := .inl ⟨n, hstat⟩
    cases n with
    | link target' => exact absurd rfl hlink
    | file bytes time =>
        refine .inr (.inl ⟨q, bytes, time, ?_, hplace, hn, hbearable⟩)
        rw [settle, hstat]
        rfl
    | directory =>
        refine .inr (.inr ⟨q, hplace, hn, hbearable, ?_⟩)
        have hsame : ∀ d : Path × Place,
            ((fs.place m.path).toOption == some d.2) = true ↔ fs.place m.path = .ok d.2 := by
          intro d
          simp [hplace, Except.toOption]
        cases hfind : m.trail.find? fun d => (fs.place m.path).toOption == some d.2 with
        | some d =>
            have hback := List.find?_some hfind
            refine .inl ⟨⟨⟨target, h.stands⟩, d, List.mem_of_find?_eq_some hfind,
              (hsame d).mp hback⟩, d.1, ?_⟩
            simp only [settle, hstat, Node.kind, if_true, hfind]
        | none =>
            refine .inr ⟨?_, ?_, hlist rfl⟩
            · rintro ⟨-, d, hd, hback⟩
              exact List.find?_eq_none.mp hfind d hd ((hsame d).mpr hback)
            · simp only [settle, hstat, Node.kind, if_true, hfind]

/-- A walk fails at a link that leads nowhere or back. -/
theorem Valid.of_settle_error {f : WalkFault} (h : Valid fs m n)
    (hsettle : settle fs m.trail m.path n.kind = .error f) :
    (m.Sound fs ↔ f.cause = .fault .notFound) ∧ (m.Sound fs → ∀ m', ¬ Step fs m m') ∧
      ∀ q, ¬ m.FileAt fs q := by
  have hstands := h.stands
  cases n with
  | file bytes time => cases hsettle
  | directory => cases hsettle
  | link target =>
      have hown : ∀ bytes time, fs.node? m.place ≠ some (.file bytes time) := by simp [hstands]
      rcases h.link_cases with ⟨e, herror, hstat, hplace⟩ | ⟨q, bytes, time, hfile, -⟩ |
        ⟨q, hplace, hdir, -, ⟨hloops, ancestor, hloop⟩ | ⟨-, hopen, -⟩⟩
      · cases herror.symm.trans hsettle
        refine ⟨?_, fun _ m' => not_step fun q hq => absurd hq (hplace q), ?_⟩
        · simpa using sound_iff_of_stat_error hstat hplace hown
        · rintro q ⟨⟨bytes, time, hq⟩, rfl | ⟨-, hq'⟩⟩
          · exact hown bytes time hq
          · exact hplace q hq'
      · cases hfile.symm.trans hsettle
      · cases hloop.symm.trans hsettle
        have hnot : ¬ m.Sound fs := fun hsound => hsound.noLoop hloops
        refine ⟨by simp [hnot], fun hsound => absurd hsound hnot, ?_⟩
        rintro q' ⟨⟨bytes, time, hq⟩, rfl | ⟨-, hq'⟩⟩
        · exact hown bytes time hq
        · cases hplace.symm.trans hq'
          cases hdir.symm.trans hq
      · cases hopen.symm.trans hsettle

/-- What a walk takes for no directory is a file or a link to one. -/
theorem Valid.of_settle_leaf (h : Valid fs m n)
    (hsettle : settle fs m.trail m.path n.kind = .ok kind) (hleaf : kind ≠ .directory) :
    m.Sound fs ∧ (∀ m', ¬ Step fs m m') ∧ kind = .file ∧ ∃ q, m.FileAt fs q := by
  have hstands := h.stands
  cases n with
  | directory =>
      cases hsettle
      exact absurd rfl hleaf
  | file bytes time =>
      cases hsettle
      have hnolink : ¬ ∃ target, fs.node? m.place = some (.link target) := by simp [hstands]
      have hnodir : ∀ q, fs.place m.path = .ok q → fs.node? q ≠ some .directory := by
        intro q hq
        rw [h.straight (by simp [Node.kind]) hq, hstands]
        simp
      exact ⟨⟨fun hno => absurd hstands (hno bytes time), fun hloops => hnolink hloops.1⟩,
        fun m' => not_step hnodir, rfl, m.place, ⟨bytes, time, hstands⟩, .inl rfl⟩
  | link target =>
      rcases h.link_cases with ⟨e, herror, -⟩ | ⟨q, bytes, time, hfile, hplace, hq, hbearable⟩ |
        ⟨q, -, -, -, ⟨-, ancestor, hloop⟩ | ⟨-, hopen, -⟩⟩
      · cases herror.symm.trans hsettle
      · cases hfile.symm.trans hsettle
        have hnodir : ∀ q', fs.place m.path = .ok q' → fs.node? q' ≠ some .directory := by
          intro q' hq'
          cases hplace.symm.trans hq'
          simp [hq]
        have hnoloop : ¬ m.Loops fs := by
          rintro ⟨-, d, hd, hback⟩
          exact hnodir d.2 hback (h.open_trail d hd)
        exact ⟨⟨fun _ => hbearable, hnoloop⟩, fun m' => not_step hnodir, rfl, q,
          ⟨bytes, time, hq⟩, .inr ⟨⟨target, hstands⟩, hplace⟩⟩
      · cases hloop.symm.trans hsettle
      · cases hopen.symm.trans hsettle
        exact absurd rfl hleaf

/-- What a walk takes for a directory is no file, and either cannot be looked at or leads to a
directory that can be listed. -/
theorem Valid.of_settle_directory (h : Valid fs m n)
    (hsettle : settle fs m.trail m.path n.kind = .ok .directory) :
    (∀ q, ¬ m.FileAt fs q) ∧
      ((∃ e, fs.list m.path = .error e ∧ (m.Sound fs ↔ e = .notFound) ∧ ∀ m', ¬ Step fs m m') ∨
        ∃ q, fs.place m.path = .ok q ∧ fs.list m.path = .ok (fs.children q) ∧ m.Sound fs) := by
  have hstands := h.stands
  cases n with
  | file bytes time => cases hsettle
  | directory =>
      have hown : ∀ bytes time, fs.node? m.place ≠ some (.file bytes time) := by simp [hstands]
      have hnolink : ¬ ∃ target, fs.node? m.place = some (.link target) := by simp [hstands]
      constructor
      · rintro q ⟨⟨bytes, time, hq⟩, rfl | ⟨hlink, -⟩⟩
        · exact hown bytes time hq
        · exact hnolink hlink
      · rcases FileSystem.look_cases h.anchored with
          ⟨e, hstat, hlist, hplace⟩ | ⟨q, n', hplace, hn', hstat, hlist, -⟩
        · exact .inl ⟨e, hlist, sound_iff_of_stat_error hstat hplace hown,
            fun m' => not_step fun q hq => absurd hq (hplace q)⟩
        · rw [h.straight (by simp [Node.kind]) hplace, hstands] at hn'
          cases hn'
          exact .inr ⟨q, hplace, hlist rfl, fun _ => .inl ⟨_, hstat⟩,
            fun hloops => hnolink hloops.1⟩
  | link target =>
      have hown : ∀ bytes time, fs.node? m.place ≠ some (.file bytes time) := by simp [hstands]
      rcases h.link_cases with ⟨e, herror, -⟩ | ⟨q, bytes, time, hfile, -⟩ |
        ⟨q, hplace, hdir, hbearable, ⟨-, ancestor, hloop⟩ | ⟨hnoloop, -, hlist⟩⟩
      · cases herror.symm.trans hsettle
      · cases hfile.symm.trans hsettle
      · cases hloop.symm.trans hsettle
      · refine ⟨?_, .inr ⟨q, hplace, hlist, fun _ => hbearable, hnoloop⟩⟩
        rintro q' ⟨⟨bytes, time, hq⟩, rfl | ⟨-, hq'⟩⟩
        · exact hown bytes time hq
        · cases hplace.symm.trans hq'
          cases hdir.symm.trans hq

end Sighting

/-! ### Visits and sightings -/

/-- Whether a visit disturbs a search: it fails, and not because something is missing. -/
def Disturbs : Visit → Prop
  | .entry .. => False
  | .failed f => f.cause ≠ .fault .notFound

variable {place : Place} {n : Node}

/-- What stands in a directory that a walk goes into is what the walk goes on to. -/
theorem step_iff_of_place {m m' : Sighting} {q : Place} (hplace : fs.place m.path = .ok q) :
    Step fs m m' ↔
      ∃ e ∈ fs.children q, m' = ⟨enter fs m.trail m.path, m.path.child e.1, q ++ [e.1]⟩ := by
  have henter : enter fs m.trail m.path = (m.path, q) :: m.trail := by
    rw [enter, hplace]
    rfl
  rw [henter]
  constructor
  · rintro ⟨hplace', hnode⟩
    cases hplace.symm.trans hplace'
    exact ⟨(_, _), FileSystem.mem_children.mpr ⟨_, hnode, rfl⟩, rfl⟩
  · rintro ⟨⟨s, kind⟩, he, rfl⟩
    obtain ⟨n, hn, -⟩ := FileSystem.mem_children.mp he
    exact .into hplace hn

/-- What stands in a directory that a walk goes into is of the kind that the directory lists. -/
theorem Sighting.Valid.child {m : Sighting} {q : Place} {e : String × Kind} (hnamed : fs.Named)
    (hvalid : m.Valid fs n) (hplace : fs.place m.path = .ok q) (he : e ∈ fs.children q) :
    ∃ n', Sighting.Valid fs ⟨enter fs m.trail m.path, m.path.child e.1, q ++ [e.1]⟩ n' ∧
      n'.kind = e.2 := by
  obtain ⟨n', hvalid'⟩ := hvalid.step hnamed ((step_iff_of_place hplace).mpr ⟨e, he, rfl⟩)
  obtain ⟨n'', hn'', hkind⟩ := FileSystem.mem_children.mp he
  cases hvalid'.stands.symm.trans hn''
  exact ⟨n', hvalid', hkind⟩

/-- What lies below something in which nothing stands. -/
theorem reaches_iff_of_not_step {m m' : Sighting} (h : ∀ m', ¬ Step fs m m') :
    Relation.ReflTransGen (Step fs) m m' ↔ m' = m := by
  rw [Relation.ReflTransGen.cases_head_iff]
  constructor
  · rintro (rfl | ⟨m₁, hstep, -⟩)
    · rfl
    · exact absurd hstep (h m₁)
  · rintro rfl
    exact .inl rfl

/-- The visits of a walk from a sighting, told by what is there. -/
inductive Surveys (fs : FileSystem) : Sighting → List Visit → Prop where
  /-- The walk goes no further: nothing stands in what it has come to, unless that is not sound. -/
  | ends {m visits} (hsound : (∀ v ∈ visits, ¬ Disturbs v) ↔ m.Sound fs)
      (hstuck : m.Sound fs → ∀ m', ¬ Step fs m m')
      (hfile : ∀ p, .entry p .file ∈ visits ↔ p = m.path ∧ ∃ q, m.FileAt fs q) :
      Surveys fs m visits
  /-- The walk has come to a directory, and surveys what stands in it. -/
  | opens {m q} (below : String × Kind → List Visit) (hsound : m.Sound fs)
      (hnofile : ∀ q, ¬ m.FileAt fs q) (hplace : fs.place m.path = .ok q)
      (hbelow : ∀ e ∈ fs.children q, Surveys fs
        ⟨enter fs m.trail m.path, m.path.child e.1, q ++ [e.1]⟩ (below e)) :
      Surveys fs m (.entry m.path .directory :: (fs.children q).flatMap below)

/-- **The course of a walk surveys what is there.** The induction is on the course; where it opens a
directory, what stands in that is what the directory lists. -/
theorem Course.surveys (hnamed : fs.Named) (hcourse : Course fs trail path kind visits)
    (hvalid : Sighting.Valid fs ⟨trail, path, place⟩ n) (hkind : n.kind = kind) :
    Surveys fs ⟨trail, path, place⟩ visits := by
  induction hcourse generalizing place n with
  | failed hsettle =>
      subst hkind
      obtain ⟨hsound, hstuck, hnofile⟩ := hvalid.of_settle_error hsettle
      exact .ends (by simp [Disturbs, hsound]) hstuck (by simp [hnofile])
  | leaf hsettle hleaf =>
      subst hkind
      obtain ⟨hsound, hstuck, rfl, hfile⟩ := hvalid.of_settle_leaf hsettle hleaf
      exact .ends (by simp [Disturbs, hsound]) (fun _ => hstuck) (by simp [hfile])
  | unlisted hsettle hlist =>
      subst hkind
      obtain ⟨hnofile, ⟨e, hlist', hsound, hstuck⟩ | ⟨q, -, hlist', -⟩⟩ :=
        hvalid.of_settle_directory hsettle
      · cases hlist.symm.trans hlist'
        exact .ends (by simp [Disturbs, hsound]) (fun _ => hstuck) (by simp [hnofile])
      · cases hlist.symm.trans hlist'
  | opened below hsettle hlist _ ih =>
      subst hkind
      obtain ⟨hnofile, ⟨e, hlist', -⟩ | ⟨q, hplace, hlist', hsound⟩⟩ :=
        hvalid.of_settle_directory hsettle
      · cases hlist.symm.trans hlist'
      · cases hlist.symm.trans hlist'
        refine .opens below hsound hnofile hplace fun e he => ?_
        obtain ⟨n', hvalid', hkind'⟩ := hvalid.child hnamed hplace he
        exact ih e he hvalid' hkind'

namespace Surveys

variable {m m' : Sighting} {p : Path}

/-- **Nothing disturbs a walk exactly if all that lies below its root is sound.** -/
theorem undisturbed_iff (h : Surveys fs m visits) :
    (∀ v ∈ visits, ¬ Disturbs v) ↔ ∀ m', Relation.ReflTransGen (Step fs) m m' → m'.Sound fs := by
  induction h with
  | ends hsound hstuck _ =>
      rw [hsound]
      constructor
      · intro h m' hm'
        rw [reaches_iff_of_not_step (hstuck h)] at hm'
        exact hm' ▸ h
      · intro h
        exact h _ .refl
  | opens below hsound _ hplace _ ih =>
      constructor
      · intro h m' hm'
        rcases Relation.ReflTransGen.cases_head hm' with rfl | ⟨m₁, hstep, hm'⟩
        · exact hsound
        · obtain ⟨e, he, rfl⟩ := (step_iff_of_place hplace).mp hstep
          refine (ih e he).mp (fun v hv => h v ?_) m' hm'
          exact List.mem_cons_of_mem _ (List.mem_flatMap.mpr ⟨e, he, hv⟩)
      · intro h v hv
        rcases List.mem_cons.mp hv with rfl | hv
        · exact id
        · obtain ⟨e, he, hv⟩ := List.mem_flatMap.mp hv
          refine (ih e he).mpr (fun m' hm' => h m' ?_) v hv
          exact .head ((step_iff_of_place hplace).mpr ⟨e, he, rfl⟩) hm'

/-- The files that a walk meets are there, or are links to files. -/
theorem exists_file (h : Surveys fs m visits) (hp : .entry p .file ∈ visits) :
    ∃ m', Relation.ReflTransGen (Step fs) m m' ∧ m'.path = p ∧ ∃ q, m'.FileAt fs q := by
  induction h with
  | ends _ _ hfile =>
      obtain ⟨rfl, hfileAt⟩ := (hfile p).mp hp
      exact ⟨_, .refl, rfl, hfileAt⟩
  | opens below _ _ hplace _ ih =>
      obtain ⟨e, he, hp⟩ : ∃ e ∈ fs.children _, .entry p .file ∈ below e := by simpa using hp
      obtain ⟨m', hm', hfile⟩ := ih e he hp
      exact ⟨m', .head ((step_iff_of_place hplace).mpr ⟨e, he, rfl⟩) hm', hfile⟩

/-- A walk that nothing disturbs meets every file and every link to one. -/
theorem mem_of_fileAt (h : Surveys fs m visits) (hundisturbed : ∀ v ∈ visits, ¬ Disturbs v)
    (hm' : Relation.ReflTransGen (Step fs) m m') {q : Place} (hfile : m'.FileAt fs q) :
    .entry m'.path .file ∈ visits := by
  induction h with
  | ends hsound hstuck hfiles =>
      rw [reaches_iff_of_not_step (hstuck (hsound.mp hundisturbed))] at hm'
      subst hm'
      exact (hfiles _).mpr ⟨rfl, q, hfile⟩
  | opens below _ hnofile hplace _ ih =>
      rcases Relation.ReflTransGen.cases_head hm' with rfl | ⟨m₁, hstep, hm'⟩
      · exact absurd hfile (hnofile q)
      · obtain ⟨e, he, rfl⟩ := (step_iff_of_place hplace).mp hstep
        refine List.mem_cons_of_mem _ (List.mem_flatMap.mpr ⟨e, he, ?_⟩)
        exact ih e he (fun v hv => hundisturbed v
          (List.mem_cons_of_mem _ (List.mem_flatMap.mpr ⟨e, he, hv⟩))) hm'

end Surveys

/-! ### From the root -/

/-- Everything that a walk meets is valid. -/
theorem Meets.exists_valid (hnamed : fs.Named) {m : Sighting} (h : Meets fs root m) :
    ∃ n, m.Valid fs n := by
  obtain ⟨q, hlead, hreach⟩ := h
  induction hreach with
  | refl =>
      obtain ⟨n, hvalid, -⟩ := Sighting.valid_root hlead
      exact ⟨n, hvalid⟩
  | tail _ hstep ih =>
      obtain ⟨n, hvalid⟩ := ih
      exact hvalid.step hnamed hstep

/-- Where a working directory is gone, a walk of it meets nothing more. -/
theorem Course.of_adrift (hroot : fs.lead .kept root = .ok .adrift)
    (hcourse : Course fs [] root .directory visits) : visits = [.entry root .directory] := by
  have hlist : fs.list root = .ok [] := by
    have hlead : fs.lead .followed root = .ok .adrift := by
      rw [FileSystem.lead] at hroot ⊢
      obtain ⟨⟨⟩, hcheck, hpursue⟩ := except_bind_eq_ok_iff.mp hroot
      refine except_bind_eq_ok_iff.mpr ⟨(), hcheck, ?_⟩
      rw [FileSystem.pursue] at hpursue ⊢
      split_ifs at hpursue ⊢ with hadrift hdots
      · exact absurd hpursue (FileSystem.follow_ne_adrift _ _ _ _)
      · rfl
    rw [FileSystem.list, hlead]
    rfl
  cases hcourse with
  | failed hsettle => cases hsettle
  | leaf hsettle hleaf =>
      cases hsettle
      exact absurd rfl hleaf
  | unlisted hsettle hlist' => cases hlist.symm.trans hlist'
  | opened below hsettle hlist' hbelow =>
      cases hlist.symm.trans hlist'
      rfl

/-- What a root shows: something that a walk comes to, a working directory that is gone, or nothing
that a walk comes to. -/
theorem root_cases (fs : FileSystem) (root : Path) :
    (∃ q n, fs.lead .kept root = .ok (.arrived q) ∧ fs.linkStat root = .ok n ∧
      Sighting.Valid fs ⟨[], root, q⟩ n) ∨
    (fs.lead .kept root = .ok .adrift ∧ fs.linkStat root = .ok .directory ∧
      ∀ m, ¬ Meets fs root m) ∨
    ((∃ e, fs.linkStat root = .error e) ∧ ∀ m, ¬ Meets fs root m) := by
  cases hlead : fs.lead .kept root with
  | error e =>
      refine .inr (.inr ⟨⟨e, by rw [FileSystem.linkStat, hlead]; rfl⟩, ?_⟩)
      rintro m ⟨q, hq, -⟩
      cases hlead.symm.trans hq
  | ok lead =>
      cases lead with
      | arrived q =>
          obtain ⟨n, hvalid, hstat⟩ := Sighting.valid_root hlead
          exact .inl ⟨q, n, rfl, hstat, hvalid⟩
      | adrift =>
          refine .inr (.inl ⟨rfl, by rw [FileSystem.linkStat, hlead]; rfl, ?_⟩)
          rintro m ⟨q, hq, -⟩
          cases hlead.symm.trans hq
      | vacant q =>
          refine .inr (.inr ⟨⟨.notFound, by rw [FileSystem.linkStat, hlead]; rfl⟩, ?_⟩)
          rintro m ⟨q, hq, -⟩
          cases hlead.symm.trans hq

/-- **The course of a walk from a root** surveys what stands there; if nothing is met there, it
meets no file, and is disturbed only if the root cannot be looked at. -/
theorem RootCourse.surveys (hnamed : fs.Named) (hcourse : RootCourse fs root visits) :
    (∃ q, fs.lead .kept root = .ok (.arrived q) ∧ Bearable (fs.linkStat root) ∧
      Surveys fs ⟨[], root, q⟩ visits) ∨
    ((∀ m, ¬ Meets fs root m) ∧ (∀ p, .entry p .file ∉ visits) ∧
      ((∀ v ∈ visits, ¬ Disturbs v) ↔ Bearable (fs.linkStat root))) := by
  cases hcourse with
  | failed hroot =>
      rcases root_cases fs root with ⟨q, n, -, hstat, -⟩ | ⟨-, hstat, -⟩ | ⟨-, hnone⟩
      · cases hroot.symm.trans hstat
      · cases hroot.symm.trans hstat
      · exact .inr ⟨hnone, by simp, by simp [Disturbs, Bearable, hroot]⟩
  | found hroot hcourse =>
      have hbearable : Bearable (fs.linkStat root) := .inl ⟨_, hroot⟩
      rcases root_cases fs root with ⟨q, n, hlead, hstat, hvalid⟩ | ⟨hlead, hstat, hnone⟩ |
        ⟨⟨e, hstat⟩, -⟩
      · cases hroot.symm.trans hstat
        exact .inl ⟨q, hlead, hbearable, hcourse.surveys hnamed hvalid rfl⟩
      · cases hroot.symm.trans hstat
        rw [hcourse.of_adrift hlead]
        exact .inr ⟨hnone, by simp, by simp [Disturbs, hbearable]⟩
      · cases hroot.symm.trans hstat

/-- What a walk meets is what lies below its root. -/
theorem meets_iff_of_lead {q : Place} {m : Sighting}
    (hlead : fs.lead .kept root = .ok (.arrived q)) :
    Meets fs root m ↔ Relation.ReflTransGen (Step fs) ⟨[], root, q⟩ m := by
  constructor
  · rintro ⟨q', hq', hm⟩
    cases hlead.symm.trans hq'
    exact hm
  · intro hm
    exact ⟨q, hlead, hm⟩

/-- **Nothing disturbs a walk** exactly if its root can be looked at or is missing, and all that
lies below is sound. -/
theorem RootCourse.undisturbed_iff (hnamed : fs.Named) (hcourse : RootCourse fs root visits) :
    (∀ v ∈ visits, ¬ Disturbs v) ↔
      Bearable (fs.linkStat root) ∧ ∀ m, Meets fs root m → m.Sound fs := by
  rcases hcourse.surveys hnamed with ⟨q, hlead, hbearable, hsurveys⟩ | ⟨hnone, -, hiff⟩
  · rw [hsurveys.undisturbed_iff]
    simp [hbearable, meets_iff_of_lead hlead]
  · simp [hiff, hnone]

/-- **The files that a walk meets** can be reached from its root, or are links to files there. -/
theorem RootCourse.exists_file (hnamed : fs.Named) (hcourse : RootCourse fs root visits) {p : Path}
    (hp : .entry p .file ∈ visits) : ∃ m, Meets fs root m ∧ m.path = p ∧ ∃ q, m.FileAt fs q := by
  rcases hcourse.surveys hnamed with ⟨q, hlead, -, hsurveys⟩ | ⟨-, hnofile, -⟩
  · obtain ⟨m, hm, hfile⟩ := hsurveys.exists_file hp
    exact ⟨m, (meets_iff_of_lead hlead).mpr hm, hfile⟩
  · exact absurd hp (hnofile p)

/-- **A walk that nothing disturbs meets all files** that can be reached from its root, and all
links to files there. -/
theorem RootCourse.mem_of_fileAt (hnamed : fs.Named) (hcourse : RootCourse fs root visits)
    (hundisturbed : ∀ v ∈ visits, ¬ Disturbs v) {m : Sighting} {q : Place}
    (hm : Meets fs root m) (hfile : m.FileAt fs q) : .entry m.path .file ∈ visits := by
  rcases hcourse.surveys hnamed with ⟨q₀, hlead, -, hsurveys⟩ | ⟨hnone, -⟩
  · exact hsurveys.mem_of_fileAt hundisturbed ((meets_iff_of_lead hlead).mp hm) hfile
  · exact absurd hm (hnone m)

end Walk

end RealmBoot
