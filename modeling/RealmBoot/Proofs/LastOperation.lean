import Mathlib.Control.Monad.Basic
import Mathlib.Tactic.Tauto
import RealmBoot.Proofs.Building

/-!
# The Last Operation Decides

A builder may collect and exclude directories that overlap, and add single archives, in any order.
Each operation concerns some archives and leaves the others as they are, and what it does to those
it concerns does not depend on what was done before. Whether an archive is in the realm that is
sealed in the end is therefore decided by the last operation that concerned it.

## Main results

* `RealmBuilder.perform_spec`: what one operation does.
* `RealmBuilder.performAll_spec`: what is left after a sequence of operations.
* `RealmBuilder.sealed_by_last_operations`: the realm that is sealed from a new builder after a
  sequence of operations.
-/

namespace RealmBoot

namespace RealmBuilder

/-- An operation on a builder. -/
inductive Operation where
  /-- Collects a directory. -/
  | collect (dir : Path)
  /-- Excludes a directory. -/
  | exclude (dir : Path)
  /-- Adds one archive. -/
  | add (archive : Location)
deriving DecidableEq, Repr

namespace Operation

/-- An operation concerns an archive if its scan finds the archive, or if it adds just that one. -/
def Concerns (scanner : Scanner) (fs : FileSystem) (a : Location) : Operation → Prop
  | collect dir | exclude dir => scanner.Finds fs dir a
  | add archive => archive = a

/-- An operation brings in what it concerns, unless it excludes a directory. -/
def BringsIn : Operation → Prop
  | collect _ | add _ => True
  | exclude _ => False

/-- The directory an operation collects. -/
def collected? : Operation → Option Path
  | collect dir => some dir
  | exclude _ | add _ => none

end Operation

/-- Performs one operation. -/
def perform (b : RealmBuilder) (fs : FileSystem) : Operation → Except DiscoveryError RealmBuilder
  | .collect dir => b.collect fs dir
  | .exclude dir => b.exclude fs dir
  | .add archive => .ok (b.add archive)

/-- Performs operations one after another. -/
def performAll (b : RealmBuilder) (fs : FileSystem) (ops : List Operation) :
    Except DiscoveryError RealmBuilder :=
  ops.foldlM (fun b op => b.perform fs op) b

/-- The last of the operations that concern an archive brings it in. -/
def LastBringsIn (scanner : Scanner) (fs : FileSystem) (a : Location) (ops : List Operation) :
    Prop :=
  ∃ before op after, ops = before ++ op :: after ∧ op.Concerns scanner fs a ∧ op.BringsIn ∧
    ∀ later ∈ after, ¬ later.Concerns scanner fs a

variable {b b' : RealmBuilder} {fs : FileSystem} {scanner : Scanner} {a : Location}

/-- The first operation is the last that concerns an archive if none of the others concerns it. -/
theorem lastBringsIn_cons {op : Operation} {ops : List Operation} :
    LastBringsIn scanner fs a (op :: ops) ↔
      LastBringsIn scanner fs a ops ∨
        (op.Concerns scanner fs a ∧ op.BringsIn) ∧
          ∀ later ∈ ops, ¬ later.Concerns scanner fs a := by
  constructor
  · rintro ⟨before, last, after, hsplit, hconcerns, hbrings, hafter⟩
    cases before with
    | nil =>
        obtain ⟨rfl, rfl⟩ := List.cons.inj hsplit
        exact .inr ⟨⟨hconcerns, hbrings⟩, hafter⟩
    | cons first before =>
        obtain ⟨rfl, rfl⟩ := List.cons.inj hsplit
        exact .inl ⟨before, last, after, rfl, hconcerns, hbrings, hafter⟩
  · rintro (⟨before, last, after, rfl, hlast⟩ | ⟨⟨hconcerns, hbrings⟩, hafter⟩)
    · exact ⟨op :: before, last, after, rfl, hlast⟩
    · exact ⟨[], op, ops, rfl, hconcerns, hbrings, hafter⟩

/-- **What one operation does.** The archives it concerns are in afterwards if it brings them in,
and no others change; a directory that is collected for the first time is noted at the end. -/
theorem perform_spec {op : Operation} (h : b.perform fs op = .ok b') :
    b'.scanner = b.scanner ∧
      (∀ a, a ∈ b'.archives ↔
        op.Concerns b.scanner fs a ∧ op.BringsIn ∨
          a ∈ b.archives ∧ ¬ op.Concerns b.scanner fs a) ∧
      b'.sources =
        b.sources ++ op.collected?.toList.filter fun dir => !dir.among b.sources := by
  cases op with
  | collect dir =>
      obtain ⟨found, hscan, rfl⟩ := collect_eq_ok_iff.mp h
      refine ⟨rfl, fun a => ?_, ?_⟩
      · simp only [OrderedSet.mem_union, Operation.Concerns, Operation.BringsIn, Scanner.Finds,
          hscan, Except.ok.injEq, exists_eq_left']
        tauto
      · cases hamong : dir.among b.sources <;> simp [Operation.collected?, hamong]
  | exclude dir =>
      obtain ⟨found, hscan, rfl⟩ := exclude_eq_ok_iff.mp h
      refine ⟨rfl, fun a => ?_, by simp [Operation.collected?]⟩
      simp [OrderedSet.mem_without, Operation.Concerns, Operation.BringsIn, Scanner.Finds, hscan]
  | add archive =>
      cases h
      refine ⟨rfl, fun a => ?_, by simp [add, Operation.collected?]⟩
      simp only [add, OrderedSet.mem_insert, Operation.Concerns, Operation.BringsIn]
      grind

/-- A path is among a longer list if it is among the list or the same as what was added. -/
theorem among_concat (p q : Path) (ps : List Path) :
    p.among (ps ++ [q]) = (p.among ps || p.same q) := by
  simp [Path.among]

/-- Noting one directory and then others comes to noting all of them, each at its first
occurrence. -/
theorem noted_cons (sources : List Path) (dir? : Option Path) (dirs : List Path) :
    let noted := sources ++ dir?.toList.filter fun dir => !dir.among sources
    noted ++ (dirs.filter fun dir => !dir.among noted).eraseDupsBy Path.same =
      sources ++ ((dir?.toList ++ dirs).filter fun dir => !dir.among sources).eraseDupsBy
        Path.same := by
  cases dir? with
  | none => simp
  | some dir =>
      cases hamong : dir.among sources with
      | true => simp [hamong]
      | false =>
          simp [hamong, List.eraseDupsBy_cons, among_concat, List.filter_filter, Bool.and_comm]

/-- **What is left after a sequence of operations.** An archive is in if the last operation that
concerned it brought it in, or if none concerned it and it was in before. The directories collected
are noted in the order of their first collection. -/
theorem performAll_spec {ops : List Operation} (h : b.performAll fs ops = .ok b') :
    (∀ a, a ∈ b'.archives ↔
      LastBringsIn b.scanner fs a ops ∨
        a ∈ b.archives ∧ ∀ op ∈ ops, ¬ op.Concerns b.scanner fs a) ∧
      b'.sources = b.sources ++
        ((ops.filterMap Operation.collected?).filter fun dir => !dir.among b.sources).eraseDupsBy
          Path.same := by
  induction ops generalizing b with
  | nil =>
      cases h
      simp [LastBringsIn]
  | cons op ops ih =>
      rw [performAll, List.foldlM_cons, except_bind_eq_ok_iff] at h
      obtain ⟨b₁, hfirst, hrest⟩ := h
      obtain ⟨hscanner, harchives, hsources⟩ := perform_spec hfirst
      obtain ⟨harchives', hsources'⟩ := ih hrest
      refine ⟨fun a => ?_, ?_⟩
      · rw [harchives' a, hscanner, harchives a, lastBringsIn_cons, List.forall_mem_cons]
        tauto
      · have hcollected : (op :: ops).filterMap Operation.collected? =
            op.collected?.toList ++ ops.filterMap Operation.collected? := by
          rw [List.filterMap_cons]
          cases op.collected? <;> rfl
        rw [hsources', hsources, noted_cons, hcollected]

/-- **The last operation decides.** The realm sealed from a new builder after a sequence of
operations holds exactly the archives that were brought in by the last operation that concerned
them, in increasing order, and a search by halves finds just these. It was collected from the
directories of the sequence, each at its first occurrence, and exports what the manifests of its
archives list. -/
theorem sealed_by_last_operations {label : String} {ops : List Operation} {r : Realm}
    (h : ({ label, scanner } : RealmBuilder).performAll fs ops = .ok b)
    (hmake : b.make fs = .ok r) :
    (∀ a, a ∈ r.archives.toList ↔ LastBringsIn scanner fs a ops) ∧
      r.archives.toList.Pairwise (· < ·) ∧
      (∀ a, r.contains a = true ↔ a ∈ r.archives.toList) ∧
      r.sources = (ops.filterMap Operation.collected?).eraseDupsBy Path.same ∧
      ∀ name, name ∈ r.exports ↔ ∃ a ∈ r.archives.toList, a.ExportsIn fs name := by
  obtain ⟨harchives, hsources⟩ := performAll_spec h
  obtain ⟨-, hnoted, hheld, -⟩ := make_spec hmake
  refine ⟨fun a => ?_, r.archives.sorted, fun a => ?_, ?_, mem_exports_of_make hmake⟩
  · rw [hheld, ← OrderedSet.mem_def, harchives a]
    simp [OrderedSet.mem_def, EmptyCollection.emptyCollection]
  · rw [Realm.contains, OrderedSet.search_iff, OrderedSet.mem_def]
  · have hall : ∀ dirs : List Path, (dirs.filter fun dir => !dir.among []) = dirs :=
      fun dirs => List.filter_eq_self.mpr fun dir _ => rfl
    rw [hnoted, hsources, hall, List.nil_append]

/-- A directory of archives one of which lies in a directory of its own. -/
def overlappingFiles : FileSystem :=
  { root := [("lib", .directory [
      ("core.jar", .file "Export-Types: a.A, b.B\n".toUTF8 (.at 0)),
      ("payload", .directory [
        ("kept.jar", .file "Export-Types: b.B\n".toUTF8 (.at 0)),
        ("left.jar", .file "Export-Types: c.C\n".toUTF8 (.at 0))])])] }

/-- Collects a directory, excludes a part of it, adds one archive of that part again, and collects
what was collected at first under another spelling, before the part is excluded once more. -/
def overlappingOperations : List Operation :=
  [.collect ⟨"/lib"⟩, .exclude ⟨"/lib/payload"⟩, .collect ⟨"/lib/."⟩, .exclude ⟨"lib/payload"⟩,
    .add ⟨["lib", "payload", "kept.jar"]⟩]

/-- The realm that is left. -/
def overlappingRealm : Realm :=
  { label := "setup"
    sources := [⟨"/lib"⟩]
    contents := [
      (⟨["lib", "core.jar"]⟩, ["a.A", "b.B"]),
      (⟨["lib", "payload", "kept.jar"]⟩, ["b.B"])]
    sorted := by decide }

/-- Of the two archives in that part the last operation that concerns it brings in only the one. -/
theorem sealed_by_last_operations_overlapping :
    (∃ b, ({ label := "setup", scanner := .modules } : RealmBuilder).performAll overlappingFiles
        overlappingOperations = .ok b ∧ b.make overlappingFiles = .ok overlappingRealm) ∧
      LastBringsIn .modules overlappingFiles ⟨["lib", "payload", "kept.jar"]⟩
        overlappingOperations ∧
      ¬ LastBringsIn .modules overlappingFiles ⟨["lib", "payload", "left.jar"]⟩
        overlappingOperations := by
  have hrealm : (({ label := "setup", scanner := .modules } : RealmBuilder).performAll
      overlappingFiles overlappingOperations >>= fun b => b.make overlappingFiles) =
        .ok overlappingRealm := by decide +kernel
  obtain ⟨b, hperform, hmake⟩ := except_bind_eq_ok_iff.mp hrealm
  have hlast := (sealed_by_last_operations hperform hmake).1
  refine ⟨⟨b, hperform, hmake⟩, (hlast _).mp (by decide), fun h => ?_⟩
  exact absurd ((hlast _).mpr h) (by decide)

end RealmBuilder

end RealmBoot
