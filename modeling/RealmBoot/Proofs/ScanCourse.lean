import Mathlib.Data.List.Basic
import RealmBoot.Archive.Scanner
import RealmBoot.Proofs.WalkCourse

/-!
# What a Scan Comes To

A scan takes the visits of a walk one by one: a file with the name of an archive counts, something
missing is stepped over, and any other failure ends it. So a scan is decided by the course of its
walk, and through that by what can be reached from its root.

## Main results

* `Scanner.exists_scan_iff`: when a scan succeeds.
* `Scanner.mem_scan_iff`: what it finds then.
* `Scanner.scan_eq_error_iff`: which error it ends with otherwise.
* `Scanner.scan_decided`: the three together.
-/

namespace RealmBoot

/-- The error that a search makes of a visit, if any. -/
def Visit.error? : Visit → Option DiscoveryError
  | .entry .. => none
  | .failed f => DiscoveryError.ofWalkFault? f

/-- A visit makes an error exactly if it disturbs the search. -/
theorem Visit.error?_eq_none_iff {v : Visit} : v.error? = none ↔ ¬ Walk.Disturbs v := by
  cases v with
  | entry path kind => simp [error?, Walk.Disturbs]
  | failed f =>
      obtain ⟨path, cause⟩ := f
      cases cause with
      | loop ancestor => simp [error?, Walk.Disturbs, DiscoveryError.ofWalkFault?]
      | fault e => cases e <;> simp [error?, Walk.Disturbs, DiscoveryError.ofWalkFault?]

namespace Scanner

variable {ε α : Type} {fs : FileSystem} {s : Scanner} {root p : Path}
  {accepts : Location → Bool} {l : Location} {v : Visit}

/-! ### Collecting up to the first error -/

/-- The error of a failed result. -/
def failure? : Except ε α → Option ε
  | .ok _ => none
  | .error e => some e

/-- What follows the first error does not count. -/
theorem collect_upToError (l : List (Except ε α)) : collect (upToError l) = collect l := by
  induction l with
  | nil => rfl
  | cons x l ih =>
      cases x with
      | ok a => rw [upToError, collect, collect, ih]
      | error e => rfl

/-- A list without errors is collected as it is. -/
theorem collect_eq_ok_iff {l : List (Except ε α)} {as : List α} :
    collect l = .ok as ↔ l = as.map .ok := by
  induction l generalizing as with
  | nil => cases as <;> simp [collect]
  | cons x l ih =>
      cases x with
      | error e => cases as <;> simp [collect]
      | ok a =>
          cases as with
          | nil => cases hl : collect l <;> simp [collect, hl, Except.map]
          | cons a' as =>
              rw [collect, List.map_cons, List.cons.injEq, ← ih]
              cases hl : collect l <;> simp [Except.map]

/-- A list with errors is collected as the first of them. -/
theorem collect_eq_error_iff {l : List (Except ε α)} {e : ε} :
    collect l = .error e ↔ l.findSome? failure? = some e := by
  induction l with
  | nil => simp [collect]
  | cons x l ih =>
      cases x with
      | error e' =>
          rw [collect, List.findSome?_cons, failure?, Option.some.injEq, Except.error.injEq]
      | ok a =>
          rw [collect, List.findSome?_cons, failure?, ← ih]
          cases hl : collect l <;> simp [Except.map]

/-! ### Items -/

/-- The location of a path that a walk enters. -/
theorem ofPath_eq_ok_iff (hadrift : fs.isAdrift p = false) :
    Location.ofPath fs p = .ok l ↔ Location.ofPath? fs.workLocation p = some l := by
  rw [Location.ofPath, hadrift]
  cases Location.ofPath? fs.workLocation p <;> simp

/-- A path that is not empty and does not start from a directory that is gone has a location. -/
theorem exists_ofPath (hempty : p.text ≠ "") (hadrift : fs.isAdrift p = false) :
    ∃ l, Location.ofPath fs p = .ok l := by
  rw [Location.ofPath, hadrift, Location.ofPath?, if_neg hempty]
  exact ⟨_, rfl⟩

variable (hnamed : fs.Named)
include hnamed

/-- No visit of a walk makes an error but by failing. -/
theorem failure?_item? (hv : v ∈ Walk.visits fs root) :
    (s.item? fs v).bind failure? = v.error? := by
  cases v with
  | failed f =>
      rw [item?, Visit.error?]
      cases DiscoveryError.ofWalkFault? f <;> rfl
  | entry path kind =>
      cases kind with
      | link => rfl
      | directory => rfl
      | file =>
          obtain ⟨m, hm, rfl, -⟩ := (Walk.rootCourse_visits hnamed root).exists_file hnamed hv
          obtain ⟨n, hvalid⟩ := hm.exists_valid hnamed
          obtain ⟨l, hl⟩ := exists_ofPath hvalid.nonempty hvalid.anchored
          rw [item?, hl]
          split_ifs <;> rfl

/-- **A scan ends with the error of the first visit that fails**, unless that is because something
is missing, and whatever the condition. -/
theorem scan_eq_error_iff {e : DiscoveryError} :
    s.scan fs root accepts = .error e ↔
      (Walk.visits fs root).findSome? Visit.error? = some e := by
  have hcollect : s.scan fs root accepts = .error e ↔
      collect ((Walk.visits fs root).filterMap (s.item? fs)) = .error e := by
    rw [scan, walk, collect_upToError]
    cases collect ((Walk.visits fs root).filterMap (s.item? fs)) <;> simp [Except.map]
  have hitems : ((Walk.visits fs root).filterMap (s.item? fs)).filterMap failure? =
      (Walk.visits fs root).filterMap Visit.error? := by
    rw [List.filterMap_filterMap]
    exact List.filterMap_congr fun v hv => failure?_item? hnamed hv
  rw [hcollect, collect_eq_error_iff, ← List.head?_filterMap, hitems, List.head?_filterMap]

/-- **When a scan succeeds**: its root can be looked at or is missing, and all that can be reached
from there is sound. -/
theorem exists_scan_iff (s : Scanner) (root : Path) (accepts : Location → Bool) :
    (∃ found, s.scan fs root accepts = .ok found) ↔
      Walk.Bearable (fs.linkStat root) ∧ ∀ m, Walk.Meets fs root m → m.Sound fs := by
  rw [← (Walk.rootCourse_visits hnamed root).undisturbed_iff hnamed]
  constructor
  · rintro ⟨found, hfound⟩ v hv
    cases hfirst : (Walk.visits fs root).findSome? Visit.error? with
    | none => exact Visit.error?_eq_none_iff.mp (List.findSome?_eq_none_iff.mp hfirst v hv)
    | some e =>
        rw [(scan_eq_error_iff hnamed).mpr hfirst] at hfound
        cases hfound
  · intro h
    cases hscan : s.scan fs root accepts with
    | ok found => exact ⟨found, rfl⟩
    | error e =>
        obtain ⟨v, hv, he⟩ := List.exists_of_findSome?_eq_some
          ((scan_eq_error_iff hnamed).mp hscan)
        rw [Visit.error?_eq_none_iff.mpr (h v hv)] at he
        cases he

/-- **What a successful scan finds**: the locations of those files, and links to files, that can be
reached, have the name of an archive and satisfy the condition. -/
theorem mem_scan_iff {found : OrderedSet Location} (hscan : s.scan fs root accepts = .ok found) :
    l ∈ found ↔
      (∃ m q, Walk.Meets fs root m ∧ s.isArchiveName m.path = true ∧ m.FileAt fs q ∧
        Location.ofPath? fs.workLocation m.path = some l) ∧ accepts l = true := by
  have hcourse := Walk.rootCourse_visits hnamed root
  have hundisturbed := (hcourse.undisturbed_iff hnamed).mpr
    ((exists_scan_iff hnamed s root accepts).mp ⟨found, hscan⟩)
  rw [scan, walk, collect_upToError] at hscan
  cases hitems : collect ((Walk.visits fs root).filterMap (s.item? fs)) with
  | error e => rw [hitems] at hscan; cases hscan
  | ok as =>
      rw [hitems] at hscan
      cases hscan
      have has : ∀ l, l ∈ as ↔ .ok l ∈ (Walk.visits fs root).filterMap (s.item? fs) := by
        intro l
        rw [collect_eq_ok_iff.mp hitems]
        simp
      rw [OrderedSet.mem_ofList, List.mem_filter, has, List.mem_filterMap]
      refine and_congr_left' ?_
      constructor
      · rintro ⟨v, hv, hitem⟩
        cases v with
        | failed f => cases hf : DiscoveryError.ofWalkFault? f <;> simp [item?, hf] at hitem
        | entry path kind =>
            cases kind with
            | link => cases hitem
            | directory => cases hitem
            | file =>
                rw [item?] at hitem
                split_ifs at hitem with hname
                obtain ⟨m, hm, rfl, q, hq⟩ := hcourse.exists_file hnamed hv
                obtain ⟨n, hvalid⟩ := hm.exists_valid hnamed
                exact ⟨m, q, hm, hname, hq,
                  (ofPath_eq_ok_iff hvalid.anchored).mp (Option.some.inj hitem)⟩
      · rintro ⟨m, q, hm, hname, hq, hl⟩
        obtain ⟨n, hvalid⟩ := hm.exists_valid hnamed
        refine ⟨_, hcourse.mem_of_fileAt hnamed hundisturbed hm hq, ?_⟩
        rw [item?, if_pos hname, (ofPath_eq_ok_iff hvalid.anchored).mpr hl]

/-- **A scan is decided by what can be reached from its root.** The walk has one course and comes to
an end. The scan succeeds exactly if the root can be looked at or is missing, and everything below
it is sound. It finds the locations of the files below the root, and of the links to files, that
have the name of an archive and satisfy the condition; or else it ends with the error of the first
visit that fails, whatever the condition. -/
theorem scan_decided (s : Scanner) (root : Path) (accepts : Location → Bool) :
    (∀ visits, Walk.RootCourse fs root visits ↔ visits = Walk.visits fs root) ∧
    ((∃ found, s.scan fs root accepts = .ok found) ↔
      Walk.Bearable (fs.linkStat root) ∧ ∀ m, Walk.Meets fs root m → m.Sound fs) ∧
    (∀ found, s.scan fs root accepts = .ok found → ∀ l, l ∈ found ↔
      (∃ m q, Walk.Meets fs root m ∧ s.isArchiveName m.path = true ∧ m.FileAt fs q ∧
        Location.ofPath? fs.workLocation m.path = some l) ∧ accepts l = true) ∧
    ∀ e, s.scan fs root accepts = .error e ↔
      (Walk.visits fs root).findSome? Visit.error? = some e := by
  have hcourse := Walk.rootCourse_visits hnamed root
  refine ⟨fun visits => ⟨fun h => h.unique hcourse, ?_⟩, exists_scan_iff hnamed s root accepts,
    fun found hscan l => mem_scan_iff hnamed hscan, fun e => scan_eq_error_iff hnamed⟩
  rintro rfl
  exact hcourse

end Scanner

/-- A directory with a link to another one, which has a link back to an archive in the first; and a
link that leads nowhere. -/
def crossedFiles : FileSystem :=
  { root := [
      ("lib", .directory [
        ("a.jar", .file .empty (.at 0)),
        ("gone.jar", .link ⟨"nowhere"⟩),
        ("more", .link ⟨"../other"⟩)]),
      ("other", .directory [("b.jar", .link ⟨"../lib/a.jar"⟩), ("notes", .directory [])])] }

/-- The general theorem, where a scan finds an archive twice and steps over the link that leads
nowhere: nothing below its root disturbs it. -/
theorem scan_decided_crossed :
    crossedFiles.Named ∧ (∃ found, Scanner.modules.scan crossedFiles ⟨"lib"⟩ (fun _ => true) =
      .ok found ∧ found.toList = [⟨["lib", "a.jar"]⟩, ⟨["lib", "more", "b.jar"]⟩]) ∧
      ∀ m, Walk.Meets crossedFiles ⟨"lib"⟩ m → m.Sound crossedFiles := by
  have hnamed : crossedFiles.Named := FileSystem.named_of_namesAllowed (by decide)
  have hscan : (Scanner.modules.scan crossedFiles ⟨"lib"⟩ fun _ => true).toOption.map
      (·.toList) = some [⟨["lib", "a.jar"]⟩, ⟨["lib", "more", "b.jar"]⟩] := by decide +kernel
  cases hresult : Scanner.modules.scan crossedFiles ⟨"lib"⟩ fun _ => true with
  | error e =>
      rw [hresult] at hscan
      cases hscan
  | ok found =>
      rw [hresult] at hscan
      obtain ⟨-, hsucceeds, -⟩ := Scanner.scan_decided hnamed .modules ⟨"lib"⟩ fun _ => true
      exact ⟨hnamed, ⟨found, rfl, Option.some.inj hscan⟩, (hsucceeds.mp ⟨found, hresult⟩).2⟩

/-! ### An archive that cannot be looked at

A walk takes the word of a directory for what is a file. Where the path to a file is longer than any
path that can be looked at, and that to its directory is not, a scan finds the file all the same. -/

namespace Path

/-- The path of a name with some slashes behind it. -/
def slashed (s : String) (n : Nat) : Path := ⟨s ++ String.ofList (List.replicate n '/')⟩

/-- One more slash stands at the end. -/
theorem slashed_succ (s : String) (n : Nat) :
    (slashed s (n + 1)).text = (slashed s n).text ++ "/" := by
  rw [slashed, List.replicate_succ', String.ofList_append, ← String.append_assoc]
  rfl

/-- Each slash adds a byte. -/
theorem size_slashed (s : String) (n : Nat) :
    (slashed s n).text.utf8ByteSize = s.utf8ByteSize + n := by
  induction n with
  | zero => simp [slashed]
  | succ n ih =>
      rw [slashed_succ, String.utf8ByteSize_append, ih]
      rfl

/-- Slashes at the end add no segment. -/
theorem segments_slashed {s : String} (hs : Location.IsName s) (n : Nat) :
    (slashed s n).segments = [s] := by
  induction n with
  | zero =>
      rw [slashed, List.replicate_zero, String.ofList_nil, String.append_empty]
      exact segments_name hs.1 hs.2.2.2
  | succ n ih =>
      have htext : slashed s (n + 1) = ⟨(slashed s n).text ++ "/" ++ ""⟩ := by
        rw [String.append_empty, ← slashed_succ]
      rw [htext, segments_slash, segments_empty, List.append_nil]
      exact ih

end Path

open FileSystem

/-- Slashes at its end make no difference to where a path leads, as long as it is not too long. -/
theorem FileSystem.lead_slashed {fs : FileSystem} {s : String} {n : Nat} (hs : NameAllowed s)
    (hsize : s.utf8ByteSize + n ≤ pathLimit) (hwork : fs.workDir? = some [])
    (hdir : fs.node? [s] = some .directory) (last : AtEnd) :
    fs.lead last (Path.slashed s n) = .ok (.arrived [s]) := by
  refine lead_eq_arrived_iff.mpr ⟨?_, by simp [isAdrift, hwork], ?_⟩
  · have hnull : '\x00' ∉ (Path.slashed s n).text.toList := by
      simp [Path.slashed, hs.noNull]
    have hempty : (Path.slashed s n).text ≠ "" := by simp [Path.slashed, hs.isName.1]
    rw [checkPath, if_neg hnull, if_neg hempty, if_neg (by rw [Path.size_slashed]; omega)]
  · have hstart : start fs.workLocation.names (Path.slashed s n) = [] := by
      rw [start, workLocation, hwork]
      split_ifs <;> rfl
    have harrives : ∀ last, fs.follow last linkLimit [] [s] = .ok (.arrived [s]) :=
      fun last => follow_name hs hdir (by simp [Node.kind])
    obtain ⟨left, hthrough⟩ := through_of_arrived (harrives .followed) hdir
    rw [hstart, steps, Path.segments_slashed hs.isName]
    split_ifs
    · rw [hthrough.onward last ["."] (by simp)]
      exact follow_dot hdir
    · exact harrives last

/-- Of a directory with a single file, named with slashes at the end of its path, nothing is met but
the directory and the file. -/
theorem Walk.meets_slashed {fs : FileSystem} (hnamed : fs.Named) {d s : String} {k : Nat}
    {bytes : ByteArray} {time : Stamp}
    (hlead : ∀ last, fs.lead last (Path.slashed d k) = .ok (.arrived [d]))
    (hcontents : fs.contents [d] = [(s, .file bytes time)]) {m : Walk.Sighting}
    (hm : Walk.Meets fs (Path.slashed d k) m) :
    (m.path = Path.slashed d k ∧ m.place = [d]) ∨
      (m.path = (Path.slashed d k).child s ∧ m.place = [d, s]) := by
  have hfile : fs.node? [d, s] = some (.file bytes time) := by
    have hchild := node?_child fs [d] s
    rw [hcontents, List.lookup_cons_self] at hchild
    exact hchild
  obtain ⟨q, hroot, hreach⟩ := hm
  cases (hlead .kept).symm.trans hroot
  induction hreach with
  | refl => exact .inl ⟨rfl, rfl⟩
  | @tail m₁ m₂ hreach hstep ih =>
      obtain ⟨n₁, hvalid⟩ := Walk.Meets.exists_valid hnamed (m := m₁) ⟨_, hroot, hreach⟩
      cases hstep with
      | @into q name n' hplace hnode =>
          rcases ih with ⟨hpath, -⟩ | ⟨-, hat⟩
          · rw [hpath, place_eq_ok_iff.mpr (hlead .followed)] at hplace
            cases hplace
            rw [node?_child, hcontents, List.lookup_cons] at hnode
            split at hnode
            · next hs =>
                obtain rfl := beq_iff_eq.mp hs
                exact .inr ⟨by rw [hpath], rfl⟩
            · cases hnode
          · have hstands := hvalid.stands
            rw [hat, hfile] at hstands
            cases hstands
            have hsame := hvalid.straight (by simp [Node.kind]) hplace
            have hdir := node?_parent (by simp) hnode
            rw [hsame, hat, hfile] at hdir
            cases hdir

/-- What has a path that is too long cannot be looked at, and is not missing either. -/
theorem not_bearable_of_long {fs : FileSystem} {p : Path} (hempty : p.text ≠ "")
    (h : pathLimit < p.text.utf8ByteSize) :
    ¬ Walk.Bearable (fs.stat p) := by
  rintro (⟨n, hn⟩ | hmissing)
  · rw [stat, lead] at hn
    obtain ⟨lead, hlead, -⟩ := except_bind_eq_ok_iff.mp hn
    obtain ⟨⟨⟩, hcheck, -⟩ := except_bind_eq_ok_iff.mp hlead
    exact Nat.not_lt.mpr (size_le_of_checkPath hcheck) h
  · rw [stat, lead, checkPath, if_neg hempty, if_pos h] at hmissing
    split_ifs at hmissing <;> cases hmissing

/-- A directory with one archive. -/
def deepFiles : FileSystem :=
  { root := [("d", .directory [("long.jar", .file .empty (.at 0))])] }

/-- The names in these files are allowed. -/
theorem deepFiles_named : deepFiles.Named := named_of_namesAllowed (by decide)

/-- The directory can be named with many slashes. -/
theorem deepFiles_lead {n : Nat} (hn : n < pathLimit) (last : AtEnd) :
    deepFiles.lead last (Path.slashed "d" n) = .ok (.arrived ["d"]) := by
  have hd : "d".utf8ByteSize = 1 := rfl
  exact lead_slashed (by decide) (by omega) rfl rfl last

/-- All that a walk comes to in that directory is sound. -/
theorem deepFiles_sound {n : Nat} (hn : n < pathLimit) (m : Walk.Sighting)
    (hm : Walk.Meets deepFiles (Path.slashed "d" n) m) : m.Sound deepFiles := by
  have hdir : deepFiles.node? ["d"] = some .directory := rfl
  have hfile : deepFiles.node? ["d", "long.jar"] = some (.file .empty (.at 0)) := rfl
  rcases Walk.meets_slashed deepFiles_named (deepFiles_lead hn) rfl hm with
    ⟨hpath, hat⟩ | ⟨-, hat⟩
  · have hstat : deepFiles.stat (Path.slashed "d" n) = .ok .directory := by
      rw [stat, deepFiles_lead hn]
      rfl
    refine ⟨fun _ => .inl ⟨_, hpath ▸ hstat⟩, ?_⟩
    rintro ⟨⟨target, hlink⟩, -⟩
    rw [hat, hdir] at hlink
    cases hlink
  · refine ⟨fun hnot => absurd (hat ▸ hfile) (hnot _ _), ?_⟩
    rintro ⟨⟨target, hlink⟩, -⟩
    rw [hat, hfile] at hlink
    cases hlink

/-- **Not everything that a successful scan meets can be looked at.** So many slashes fit on a path
with the name of the directory, and not with that of the archive. -/
theorem not_scan_iff_bearable :
    ¬ ∀ fs : FileSystem, fs.Named → ∀ (s : Scanner) (root : Path) (accepts : Location → Bool),
      (∃ found, s.scan fs root accepts = .ok found) ↔
        Walk.Bearable (fs.linkStat root) ∧ ∀ m, Walk.Meets fs root m →
          Walk.Bearable (fs.stat m.path) ∧ ¬ m.Loops fs := by
  intro h
  obtain ⟨n, hn, hmany⟩ : ∃ n, n < pathLimit ∧ pathLimit < 1 + n + 8 :=
    ⟨4089, by decide, by decide⟩
  have hroot : deepFiles.linkStat (Path.slashed "d" n) = .ok .directory := by
    rw [linkStat, deepFiles_lead hn]
    rfl
  have hscan := (Scanner.exists_scan_iff deepFiles_named .modules (Path.slashed "d" n)
    fun _ => true).mpr ⟨.inl ⟨_, hroot⟩, deepFiles_sound hn⟩
  obtain ⟨-, hall⟩ := (h deepFiles deepFiles_named _ _ _).mp hscan
  have hmeets : Walk.Meets deepFiles (Path.slashed "d" n) ⟨[(Path.slashed "d" n, ["d"])],
      (Path.slashed "d" n).child "long.jar", ["d", "long.jar"]⟩ :=
    ⟨["d"], deepFiles_lead hn .kept,
      .single (.into (place_eq_ok_iff.mpr (deepFiles_lead hn .followed)) rfl)⟩
  have hname : Location.IsName "long.jar" := by decide
  have hlong : 1 + n + 8 ≤ ((Path.slashed "d" n).child "long.jar").text.utf8ByteSize :=
    Path.size_slashed "d" n ▸ Path.size_add_le_child hname
  exact not_bearable_of_long (Path.text_child_ne_empty hname) (Nat.lt_of_lt_of_le hmany hlong)
    (hall _ hmeets).1

end RealmBoot
