import RealmBoot.Dispatch.Target

/-!
# Context in Front of What Was Searched

The error about a missing target lists the directories that were searched. Whoever knows more puts
directories of its own in front of them. What is put there stays as it was given, repetitions
included; from the directories searched before, one is kept only where it is listed for the first
time. Two paths count as one directory if they have the same components, so that it can be listed
under another spelling afterwards, but none is lost.

Directories are added one by one, and one law carries the others: what was left out of a list
because the list had it already is left out again when the whole list is added to another one.

## Main results

* `TargetNotFound.foldl_addDirectory`: adding directories appends those not listed yet.
* `TargetNotFound.foldl_foldl_addDirectory`: adding a list that was added to is adding both.
* `TargetNotFound.withContext_laws`: what context does to the directories searched, that doing it
  again changes nothing, and what two contexts come to.
-/

namespace RealmBoot

namespace Path

variable {p q : Path} {ps qs : List Path}

/-- Paths are the same if their components are. -/
theorem same_iff : p.same q = true ↔ p.components = q.components := beq_iff_eq

/-- A path is among others if one of them is the same. -/
theorem among_iff : p.among ps = true ↔ ∃ q ∈ ps, p.components = q.components := by
  simp only [among, List.any_eq_true, same_iff]

/-- A path is among those of two lists if it is among those of one. -/
theorem among_append (p : Path) (ps qs : List Path) :
    p.among (ps ++ qs) = (p.among ps || p.among qs) :=
  List.any_append

/-- A member of a list is among its paths. -/
theorem among_of_mem (h : p ∈ ps) : p.among ps = true := among_iff.mpr ⟨p, h, rfl⟩

/-- The same directory is listed under another spelling, too. -/
theorem among_congr (h : p.same q = true) : p.among ps = q.among ps := by
  rw [Bool.eq_iff_iff, among_iff, among_iff, same_iff.mp h]

/-- The directories of a list that another one does not list yet, each at its first occurrence. -/
def unlisted (listed dirs : List Path) : List Path :=
  (dirs.filter fun dir => !dir.among listed).eraseDupsBy same

/-- A directory that is listed is left out. -/
theorem unlisted_cons_of_among (h : p.among ps = true) (dirs : List Path) :
    unlisted ps (p :: dirs) = unlisted ps dirs := by
  simp [unlisted, h]

/-- A directory that is not listed yet is listed from then on. -/
theorem unlisted_cons_of_not_among (h : p.among ps = false) (dirs : List Path) :
    unlisted ps (p :: dirs) = p :: unlisted (ps ++ [p]) dirs := by
  have hlater : ∀ q : Path,
      (!q.among (ps ++ [p])) = (decide (q.same p = false) && !q.among ps) := by
    intro q
    rw [among_append]
    cases hsame : q.same p <;> simp [among, hsame]
  rw [unlisted, List.filter_cons_of_pos (by rw [h]; rfl), List.eraseDupsBy_cons, List.filter_filter,
    unlisted]
  simp only [hlater]

end Path

namespace TargetNotFound

variable {p : Path} {listed more dirs : List Path}

/-! ### Adding directories one by one -/

/-- A directory that is listed is not listed again. -/
theorem addDirectory_of_among (h : p.among listed = true) : addDirectory listed p = listed :=
  if_pos h

/-- Another one is listed last. -/
theorem addDirectory_of_not_among (h : p.among listed = false) :
    addDirectory listed p = listed ++ [p] :=
  if_neg (Bool.eq_false_iff.mp h)

/-- **Adding directories appends those not listed yet,** in their order and each once. -/
theorem foldl_addDirectory (listed dirs : List Path) :
    dirs.foldl addDirectory listed = listed ++ Path.unlisted listed dirs := by
  induction dirs generalizing listed with
  | nil => exact (List.append_nil listed).symm
  | cons p dirs ih =>
      rw [List.foldl_cons, ih]
      cases h : p.among listed with
      | true => rw [addDirectory_of_among h, Path.unlisted_cons_of_among h]
      | false =>
          rw [addDirectory_of_not_among h, Path.unlisted_cons_of_not_among h, List.append_assoc,
            List.singleton_append]

/-- Once a directory is added, a path is listed if it was before or is that directory. -/
theorem among_addDirectory (p : Path) (listed : List Path) (dir : Path) :
    p.among (addDirectory listed dir) = (p.among listed || p.same dir) := by
  cases h : dir.among listed with
  | true =>
      rw [addDirectory_of_among h]
      cases hsame : p.same dir with
      | true => rw [Path.among_congr hsame, h, Bool.or_true]
      | false => rw [Bool.or_false]
  | false =>
      rw [addDirectory_of_not_among h, Path.among_append]
      exact congrArg (p.among listed || ·) (Bool.or_false _)

/-- Afterwards all of them are listed, and nothing else has come in. -/
theorem among_foldl_addDirectory (p : Path) (listed dirs : List Path) :
    p.among (dirs.foldl addDirectory listed) = (p.among listed || p.among dirs) := by
  induction dirs generalizing listed with
  | nil => exact (Bool.or_false _).symm
  | cons dir dirs ih =>
      rw [List.foldl_cons, ih, among_addDirectory, Bool.or_assoc]
      rfl

/-- Adding what is listed already changes nothing. -/
theorem foldl_addDirectory_of_among (h : ∀ p ∈ dirs, p.among listed = true) :
    dirs.foldl addDirectory listed = listed := by
  induction dirs with
  | nil => rfl
  | cons p dirs ih =>
      obtain ⟨hp, hdirs⟩ := List.forall_mem_cons.mp h
      rw [List.foldl_cons, addDirectory_of_among hp, ih hdirs]

/-- **Adding a list that was added to is adding both.** What was left out of the list because it was
listed there would be left out again. -/
theorem foldl_foldl_addDirectory (more listed dirs : List Path) :
    (dirs.foldl addDirectory listed).foldl addDirectory more =
      (listed ++ dirs).foldl addDirectory more := by
  induction dirs generalizing listed with
  | nil => rw [List.append_nil, List.foldl_nil]
  | cons p dirs ih =>
      rw [List.foldl_cons, ih]
      cases h : p.among listed with
      | true =>
          have hlisted : p.among (listed.foldl addDirectory more) = true := by
            rw [among_foldl_addDirectory, h, Bool.or_true]
          rw [addDirectory_of_among h, List.foldl_append, List.foldl_append, List.foldl_cons,
            addDirectory_of_among hlisted]
      | false => rw [addDirectory_of_not_among h, List.append_assoc, List.singleton_append]

/-! ### The laws of context -/

/-- **The laws of context.** Context puts its directories in front as they are, and of those
searched before only what it does not list follows, each directory at its first occurrence; none is
lost, and nothing else of the error changes. To give the same context again changes nothing. If a
second context is given, its directories are followed by those of the first one and then by those
searched at the beginning, each once and only if it was not listed before. -/
theorem withContext_laws (e : TargetNotFound) (first second : List Path) :
    e.withContext first = { e with searched := first ++ Path.unlisted first e.searched } ∧
      (∀ p ∈ e.searched, p.among (e.withContext first).searched = true) ∧
      (e.withContext first).withContext first = e.withContext first ∧
      (e.withContext first).withContext second =
        { e with searched := second ++ Path.unlisted second (first ++ e.searched) } := by
  have hagain : (e.searched.foldl addDirectory first).foldl addDirectory first =
      e.searched.foldl addDirectory first := by
    rw [foldl_foldl_addDirectory, List.foldl_append,
      foldl_addDirectory_of_among fun p hp => Path.among_of_mem hp]
  have hboth : (e.searched.foldl addDirectory first).foldl addDirectory second =
      second ++ Path.unlisted second (first ++ e.searched) := by
    rw [foldl_foldl_addDirectory, foldl_addDirectory]
  refine ⟨?_, fun p hp => ?_, ?_, ?_⟩
  · rw [withContext, foldl_addDirectory]
  · rw [withContext, among_foldl_addDirectory, Path.among_of_mem hp, Bool.or_true]
  · simp only [withContext, hagain]
  · simp only [withContext, hboth]

/-- A target looked for in directories some of which are listed twice, not always alike. -/
def spelledTarget : TargetNotFound :=
  { contract := ⟨"x.X", ⟨"run", []⟩⟩, realm := "setup", failure := .unresolved, chain := ["setup"]
    searched := [⟨"lib"⟩, ⟨"/repo/"⟩, ⟨"/repo"⟩, ⟨"./lib"⟩, ⟨"/host"⟩], inventory := [] }

/-- Repetitions stay in the context that is in front, and go from everything behind it. A leading
dot makes another directory; a dot or a slash at the end does not. -/
theorem withContext_laws_spelledTarget :
    ⟨"/host"⟩ ∈ spelledTarget.searched ∧
      (spelledTarget.withContext [⟨"/host/."⟩, ⟨"new"⟩, ⟨"new"⟩]).searched =
        [⟨"/host/."⟩, ⟨"new"⟩, ⟨"new"⟩, ⟨"lib"⟩, ⟨"/repo/"⟩, ⟨"./lib"⟩] ∧
      Path.among ⟨"/host"⟩
        (spelledTarget.withContext [⟨"/host/."⟩, ⟨"new"⟩, ⟨"new"⟩]).searched = true ∧
      ((spelledTarget.withContext [⟨"/host/."⟩, ⟨"new"⟩, ⟨"new"⟩]).withContext
          [⟨"/repo"⟩, ⟨"/repo"⟩]).searched =
        [⟨"/repo"⟩, ⟨"/repo"⟩, ⟨"/host/."⟩, ⟨"new"⟩, ⟨"lib"⟩, ⟨"./lib"⟩] := by
  have hmem : ⟨"/host"⟩ ∈ spelledTarget.searched := by decide
  obtain ⟨hfirst, hkept, -, hsecond⟩ := withContext_laws spelledTarget
    [⟨"/host/."⟩, ⟨"new"⟩, ⟨"new"⟩] [⟨"/repo"⟩, ⟨"/repo"⟩]
  refine ⟨hmem, ?_, hkept _ hmem, ?_⟩
  · rw [hfirst]
    decide
  · rw [hsecond]
    decide

end TargetNotFound

end RealmBoot
