import RealmBoot.Proofs.BelowHome

/-!
# The Directory That Receives Files

Files are put into a directory under its path followed by a name. This module says which directory
that is, that such a path leads to the place of that name in it as long as no link stands there, and
that making the directory makes it, or leaves it as it is.

## Main results

* `FileSystem.Receives.place_child`, `FileSystem.Receives.writePlace_child`: where a path leads that
  names something in the directory.
* `FileSystem.createDirs_of_isDirectory`: a directory that is there is not made again.
* `FileSystem.exists_receives`: once it was made, the directory is there for every path that leads
  anywhere.
-/

namespace RealmBoot

namespace FileSystem

variable {fs fs' made : FileSystem} {written : Place → Prop} {target p : Path} {q r : Place}
  {s : String} {last : AtEnd} {lead : Lead}

/-! ### Names in a directory -/

/-- Names behind a path are looked up in the directory at a place. The empty path stands for the
working directory. -/
structure Receives (fs : FileSystem) (target : Path) (q : Place) : Prop where
  /-- The path leads there. -/
  place : fs.place (if target.text = "" then ⟨"."⟩ else target) = .ok q
  /-- A directory stands there. -/
  directory : fs.node? q = some .directory

/-- What receives files receives them when more were added. -/
theorem Receives.grows (h : fs.Receives target q) (hgrows : Grows written fs fs') :
    fs'.Receives target q where
  place := place_eq_ok_iff.mpr (hgrows.lead (place_eq_ok_iff.mp h.place))
  directory := hgrows.directory h.directory

/-- There is only one such directory. -/
theorem Receives.unique (h : fs.Receives target q) (h' : fs.Receives target r) : q = r :=
  Except.ok.inj (h.place.symm.trans h'.place)

/-- What holds of it holds of every such directory. -/
theorem Receives.all {P : Place → Prop} (h : fs.Receives target q) (hq : P q) :
    ∀ r, fs.Receives target r → P r := by
  intro r hr
  rwa [← h.unique hr]

/-- A path denotes no file of the directory that another path leads to. -/
def Apart (fs : FileSystem) (target p : Path) : Prop :=
  ∀ q s, fs.Receives target q → fs.place p ≠ .ok (q ++ [s])

/-- A path that leads somewhere else denotes no file of the directory. -/
theorem Receives.apart (h : fs.Receives target q)
    (hp : (fs.place p).toOption.any (q.isPrefixOf ·) = false) : fs.Apart target p := by
  intro q' s hq' hplace
  obtain rfl := h.unique hq'
  have hbelow : q.isPrefixOf (q ++ [s]) = true :=
    List.isPrefixOf_iff_prefix.mpr (List.prefix_append q [s])
  rw [hplace, Except.toOption, Option.any_some, hbelow] at hp
  cases hp

/-- A name behind the empty path is the path. -/
theorem child_of_empty (hempty : target.text = "") (hs : Location.IsName s) :
    target.child s = ⟨s⟩ := by
  rw [Path.child, Path.join, Path.isAbsolute_eq_false_of_slash hs.2.2.2, hempty]
  simp

/-- It is looked up in the working directory. -/
theorem start_child_of_empty (fs : FileSystem) (hempty : target.text = "")
    (hs : Location.IsName s) :
    start fs.workLocation.names (target.child s) = fs.workLocation.names ∧
      steps (target.child s) = [s] := by
  constructor
  · rw [start, child_of_empty hempty hs, Path.isAbsolute_eq_false_of_slash hs.2.2.2]
    rfl
  · rw [steps, Path.endsInSlash_child hs, child_of_empty hempty hs,
      Path.segments_name hs.1 hs.2.2.2]
    rfl

/-- **A path that names something in the directory** is followed on from there. -/
theorem Receives.follow_child (h : fs.Receives target q) (hs : Location.IsName s) :
    ∃ left, ∀ last,
      fs.follow last linkLimit (start fs.workLocation.names (target.child s))
        (steps (target.child s)) = fs.follow last left q [s] := by
  by_cases hempty : target.text = ""
  · obtain ⟨hstart, hsteps⟩ := start_child_of_empty fs hempty hs
    have hplace := h.place
    rw [if_pos hempty] at hplace
    obtain ⟨-, -, hfollow⟩ := lead_eq_arrived_iff.mp (place_eq_ok_iff.mp hplace)
    have hdir := (follow_eq_ok_iff.mp hfollow).from_directory
    have hdot : start fs.workLocation.names ⟨"."⟩ = fs.workLocation.names ∧
        steps ⟨"."⟩ = ["."] := ⟨rfl, by decide⟩
    rw [hdot.1] at hdir
    rw [hdot.1, hdot.2, follow_dot hdir] at hfollow
    cases hfollow
    exact ⟨linkLimit, fun last => by rw [hstart, hsteps]⟩
  · have hplace := h.place
    rw [if_neg hempty] at hplace
    exact FileSystem.follow_child (place_eq_ok_iff.mp hplace) h.directory hs

/-- A name without a link under it leads to its place, if anywhere. -/
theorem Receives.child_cases (h : fs.Receives target q) (hs : Location.IsName s)
    (hlink : ∀ linked, fs.node? (q ++ [s]) ≠ some (.link linked))
    (hfollow : fs.follow last linkLimit (start fs.workLocation.names (target.child s))
      (steps (target.child s)) = .ok lead) :
    lead = .arrived (q ++ [s]) ∨ lead = .vacant (q ++ [s]) := by
  obtain ⟨left, hchild⟩ := h.follow_child hs
  rw [hchild] at hfollow
  refine follow_names (by simpa using hs) ?_ hfollow
  intro rel hrel hne _
  obtain rfl : rel = [s] := by
    cases rel with
    | nil => exact absurd rfl hne
    | cons t rel => simpa using hrel
  exact hlink

/-- **What a name in the directory denotes** stands there under that name. -/
theorem Receives.place_child (h : fs.Receives target q) (hs : Location.IsName s)
    (hlink : ∀ linked, fs.node? (q ++ [s]) ≠ some (.link linked))
    (hplace : fs.place (target.child s) = .ok r) : r = q ++ [s] := by
  obtain ⟨-, -, hfollow⟩ := lead_eq_arrived_iff.mp (place_eq_ok_iff.mp hplace)
  simpa using h.child_cases hs hlink hfollow

/-- **What is written under a name in the directory** is written there. -/
theorem Receives.writePlace_child (h : fs.Receives target q) (hs : Location.IsName s)
    (hlink : ∀ linked, fs.node? (q ++ [s]) ≠ some (.link linked))
    (hplace : fs.writePlace (target.child s) = .ok r) : r = q ++ [s] := by
  obtain ⟨-, -, hslash, lead, hfollow, hlead⟩ := writePlace_eq_ok_iff.mp hplace
  have hsteps : steps (target.child s) = (target.child s).segments := by
    rw [steps, hslash]
    rfl
  rw [← hsteps] at hfollow
  have hcases := h.child_cases hs hlink hfollow
  rcases hlead with rfl | ⟨rfl, -⟩
  · simpa using hcases
  · simpa using hcases

/-! ### Making the directory -/

/-- A directory that is there cannot be made. Whether a link at the end is kept or followed, the
path leads to something. -/
theorem createDir_of_isDirectory (h : fs.isDirectory p = true) :
    fs.createDir p = .error .alreadyExists := by
  have hmade : ∀ lead, checkPath p = .ok () → fs.pursue .kept p p.segments = .ok lead →
      (lead = .adrift ∨ ∃ q, lead = .arrived q) → fs.createDir p = .error .alreadyExists := by
    intro lead hcheck hpursue hlead
    rw [createDir, hcheck, hpursue]
    rcases hlead with rfl | ⟨q, rfl⟩ <;> rfl
  rcases isDirectory_iff.mp h with hadrift | ⟨q, hlead, hq⟩
  · rw [FileSystem.lead] at hadrift
    obtain ⟨⟨⟩, hcheck, hpursue⟩ := except_bind_eq_ok_iff.mp hadrift
    rw [pursue] at hpursue
    split_ifs at hpursue with hnot hdots
    · exact absurd hpursue (follow_ne_adrift _ _ _ _)
    · refine hmade .adrift hcheck ?_ (.inl rfl)
      rw [pursue, if_neg hnot, if_pos]
      rw [List.all_eq_true] at hdots ⊢
      intro t ht
      refine hdots t ?_
      rw [steps]
      split_ifs
      · exact List.mem_append_left _ ht
      · exact ht
  · obtain ⟨hcheck, hadrift, -⟩ := lead_eq_arrived_iff.mp hlead
    obtain ⟨left, hthrough⟩ := through_of_lead hlead hq
    have hkept : ∀ r, fs.follow .kept linkLimit (start fs.workLocation.names p) p.segments =
        .ok (.arrived r) → fs.createDir p = .error .alreadyExists := by
      intro r hr
      refine hmade (.arrived r) hcheck ?_ (.inr ⟨r, rfl⟩)
      rw [pursue, hadrift]
      exact hr
    rcases Classical.em (∃ r, fs.follow .kept linkLimit (start fs.workLocation.names p)
      p.segments = .ok (.arrived r)) with ⟨r, hr⟩ | hnone
    · exact hkept r hr
    · refine hkept q ((follow_followed fun r _ hr => ?_).symm.trans hthrough.arrives)
      exact absurd ⟨r, hr⟩ hnone

/-- **A directory that is there is not made again.** -/
theorem createDirs_of_isDirectory (h : p.text = "" ∨ fs.isDirectory p = true) :
    outcome (createDirs p) fs = (.ok (), fs) := by
  rw [createDirs]
  split_ifs with hempty
  · rfl
  · have hdir := h.resolve_left hempty
    rw [createDirAfter, outcome_bind_of_ok (outcome_get fs), createDir_of_isDirectory hdir]
    dsimp only
    rw [outcome_bind_of_ok (outcome_get fs), if_pos hdir]
    rfl

/-- What is left if a directory was made after those above it, or could not be made. -/
theorem isDirectory_of_createDirAfter {above : Action Fault Unit}
    (h : outcome (createDirAfter above p) fs = (.ok (), made)) : made.isDirectory p = true := by
  have hmade : ∀ fs fs' : FileSystem, fs.createDir p = .ok fs' → fs'.isDirectory p = true := by
    intro fs fs' hcreate
    obtain ⟨q, hq, -, habove, rfl, hplace, -⟩ := createDir_spec hcreate
    refine isDirectory_iff.mpr (.inr ⟨q, place_eq_ok_iff.mp hplace, ?_⟩)
    rw [node?_put hq habove]
    simp
  have hthere : ∀ (e : Fault) (fs : FileSystem),
      outcome (do unless (← get).isDirectory p do throw e : Action Fault Unit) fs = (.ok (), made) →
        made.isDirectory p = true := by
    intro e fs h
    rw [outcome_bind_of_ok (outcome_get fs)] at h
    split_ifs at h with hdir
    · cases h
      exact hdir
    · cases h
  rw [createDirAfter, outcome_bind_of_ok (outcome_get fs)] at h
  split at h
  · next fs' hcreate =>
      cases h
      exact hmade _ _ hcreate
  · obtain ⟨⟨⟩, fs₁, -, h⟩ := outcome_bind_eq_ok_iff.mp h
    rw [outcome_bind_of_ok (outcome_get fs₁)] at h
    split at h
    · next fs' hcreate =>
        cases h
        exact hmade _ _ hcreate
    · exact hthere _ _ h
  · exact hthere _ _ h

/-- A directory that was made is there, if its path is not empty. -/
theorem isDirectory_of_createDirs (h : outcome (createDirs p) fs = (.ok (), made)) :
    p.text = "" ∨ made.isDirectory p = true := by
  rw [createDirs] at h
  split_ifs at h with hempty
  · exact .inl hempty
  · exact .inr (isDirectory_of_createDirAfter h)

/-- **Once it was made, the directory is there** for every path that names something in it and leads
anywhere. -/
theorem exists_receives (hmade : target.text = "" ∨ fs.isDirectory target = true)
    (hs : Location.IsName s) (hadrift : fs.isAdrift (target.child s) = false)
    (hfollow : fs.follow last linkLimit (start fs.workLocation.names (target.child s))
      (steps (target.child s)) = .ok lead) : ∃ q, fs.Receives target q := by
  by_cases hempty : target.text = ""
  · obtain ⟨hstart, -⟩ := start_child_of_empty fs hempty hs
    have hdir := (follow_eq_ok_iff.mp hfollow).from_directory
    rw [hstart] at hdir
    refine ⟨fs.workLocation.names, ?_, hdir⟩
    rw [if_pos hempty]
    refine place_eq_ok_iff.mpr (lead_eq_arrived_iff.mpr ⟨rfl, ?_, follow_dot hdir⟩)
    have hchild : (target.child s).isAbsolute = false := by
      rw [child_of_empty hempty hs]
      exact Path.isAbsolute_eq_false_of_slash hs.2.2.2
    rw [isAdrift, hchild, decide_eq_true (Path.text_child_ne_empty hs)] at hadrift
    exact hadrift
  · rcases isDirectory_iff.mp (hmade.resolve_left hempty) with hgone | ⟨q, hlead, hq⟩
    · rw [FileSystem.lead] at hgone
      obtain ⟨⟨⟩, -, hgone⟩ := except_bind_eq_ok_iff.mp hgone
      rw [pursue] at hgone
      split_ifs at hgone with hnot
      · exact absurd hgone (follow_ne_adrift _ _ _ _)
      · rw [isAdrift, decide_eq_true (Path.text_child_ne_empty hs),
          Path.isAbsolute_child hs hempty] at hadrift
        rw [isAdrift, decide_eq_true hempty, hadrift] at hnot
        exact absurd rfl hnot
    · refine ⟨q, ?_, hq⟩
      rw [if_neg hempty]
      exact place_eq_ok_iff.mpr hlead

end FileSystem

end RealmBoot
