import RealmBoot.Launch.RunHome
import RealmBoot.Proofs.BelowHome
import RealmBoot.Proofs.WalkCourse

/-!
# The Course of a Home

A home begins as an empty directory: one that was given, or a temporary one that is made under a
name of its own. In the end a temporary home is removed with all that was put into it. Since it was
made where nothing stood, removing it takes away nothing that was there before the run.

## Main results

* `RunHome.prepare_spec`, `RunHome.canHouse_of_prepare`: what a home is when it is prepared.
* `RunHome.dispose_temporary`: what is left once a temporary home is given up.
-/

namespace RealmBoot

namespace FileSystem

variable {base fs fs' : FileSystem} {dir p : Path} {q : Place} {s : String}

/-! ### Empty directories -/

/-- Whatever stands below a directory stands at or below something that it lists. -/
theorem exists_mem_children {rel : Place} {n : Node} (hrel : rel ≠ [])
    (hn : fs.node? (q ++ rel) = some n) :
    ∃ s rest kind, rel = s :: rest ∧ (s, kind) ∈ fs.children q := by
  obtain ⟨s, rest, rfl⟩ := List.exists_cons_of_ne_nil hrel
  have hchild : ∃ m, fs.node? (q ++ [s]) = some m := by
    cases rest with
    | nil => exact ⟨n, hn⟩
    | cons t rest =>
        rw [List.append_cons] at hn
        exact ⟨_, node?_parent (by simp) hn⟩
  obtain ⟨m, hm⟩ := hchild
  exact ⟨s, rest, _, rfl, mem_children.mpr ⟨m, hm, rfl⟩⟩

/-- A directory that lists nothing can be a home. -/
theorem canHouse_of_list (h : fs.list dir = .ok []) : fs.CanHouse dir := by
  rw [list] at h
  obtain ⟨lead, hlead, hlist⟩ := except_bind_eq_ok_iff.mp h
  cases lead with
  | vacant q => cases hlist
  | adrift =>
      rw [FileSystem.lead] at hlead
      obtain ⟨⟨⟩, -, hpursue⟩ := except_bind_eq_ok_iff.mp hlead
      refine .inl ?_
      rw [pursue] at hpursue
      split_ifs at hpursue with hadrift
      · exact absurd hpursue (follow_ne_adrift _ _ _ _)
      · simpa using hadrift
  | arrived q =>
      dsimp only at hlist
      split_ifs at hlist with hdir
      have hchildren : fs.children q = [] := Except.ok.inj hlist
      refine .inr ⟨q, place_eq_ok_iff.mpr hlead, isDirectoryAt_iff.mp hdir, fun rel hrel => ?_⟩
      cases hn : fs.node? (q ++ rel) with
      | none => rfl
      | some n =>
          obtain ⟨s, rest, kind, -, hlisted⟩ := exists_mem_children hrel hn
          rw [hchildren] at hlisted
          cases hlisted

/-- A name that can be followed is not too long. -/
theorem fits_of_follow {last : AtEnd} {links : Nat} {lead : Lead} (hs : Location.IsName s)
    (h : fs.follow last links q [s] = .ok lead) : s.utf8ByteSize ≤ nameLimit := by
  have hdir := (follow_eq_ok_iff.mp h).from_directory
  rcases Nat.lt_or_ge nameLimit s.utf8ByteSize with hlong | hfits
  · rw [follow_eq_resume hdir, stretch_eq_iff.mpr (.tooLong hs.2.1 hs.2.2.1 hlong)] at h
    cases h
  · exact hfits

/-- A name at the end of a path that leads somewhere, its link kept, is the last name of the place
it leads to. -/
theorem nameAllowed_of_follow {here : Place} {links : Nat} (hs : Location.IsName s)
    (hcheck : checkPath (dir.child s) = .ok ())
    (h : fs.follow .kept links here (dir.child s).segments = .ok (.arrived q)) :
    ∃ above, q = above ++ [s] ∧ NameAllowed s := by
  rw [Path.segments_child hs] at h
  obtain ⟨above, left, -, hlast⟩ := through_of_append (by simp) h
  have hnull : '\x00' ∉ s.toList := by
    have hmem : s ∈ (dir.child s).segments := by simp [Path.segments_child hs]
    exact fun hc => noNull_of_checkPath hcheck ((Path.of_mem_segments hmem).2.2 _ hc)
  have hlink : fs.NoLinkOn .kept above [s] := by
    intro rel hrel hne hkept
    cases rel with
    | nil => exact absurd rfl hne
    | cons t rel => exact absurd rfl (hkept (by simpa using hrel))
  refine ⟨above, ?_, hs, hnull, fits_of_follow hs hlast⟩
  simpa using follow_names (by simpa using hs) hlink hlast

/-- A directory made under a name in a directory is empty, stands where its path leads, and has an
allowed name. Nothing else has changed. -/
theorem emptyAt_of_createDir (hnamed : base.Named) (hs : Location.IsName s)
    (h : base.createDir (dir.child s) = .ok fs) :
    ∃ q, q ≠ [] ∧ base.node? q = none ∧ (∀ r, ¬ q <+: r → fs.node? r = base.node? r) ∧
      fs.EmptyAt (dir.child s) q ∧ fs.lead .kept (dir.child s) = .ok (.arrived q) ∧ fs.Named := by
  obtain ⟨hcheck, hadrift, -⟩ := createDir_eq_ok_iff.mp h
  obtain ⟨q, hne, hfree, habove, rfl, hplace, hkept⟩ := createDir_spec h
  have hput : ∀ p, (base.put q .directory).node? p =
      if q <+: p then if p = q then some .directory else none else base.node? p :=
    fun p => node?_put hne habove
  have hdirectory : (base.put q .directory).node? q = some .directory := by simp [hput]
  refine ⟨q, hne, hfree, fun r hr => ?_, ⟨hplace, hdirectory, fun rel hrel => ?_⟩, ?_, ?_⟩
  · rw [hput, if_neg hr]
  · rw [hput, if_pos (List.prefix_append _ _), if_neg]
    simpa using hrel
  · refine lead_eq_arrived_iff.mpr ⟨hcheck, hadrift, ?_⟩
    rw [steps, Path.endsInSlash_child hs]
    exact hkept
  · intro p n hn t ht
    rw [hput] at hn
    split_ifs at hn with hbelow hsame
    · obtain ⟨above, rfl, hallowed⟩ := nameAllowed_of_follow hs hcheck hkept
      subst hsame
      rcases List.mem_append.mp ht with ht | ht
      · rw [List.dropLast_concat] at habove
        exact hnamed _ _ habove t ht
      · rwa [List.mem_singleton.mp ht]
    · exact hnamed p n hn t ht

/-! ### Removing a directory with all that it holds -/

/-- What is left after things in one directory were removed one after another. -/
theorem node?_foldl_remove (entries : List (String × Kind)) (fs : FileSystem) (q p : Place) :
    (entries.foldl (fun fs e => fs.remove (q ++ [e.1])) fs).node? p =
      if ∃ e ∈ entries, q ++ [e.1] <+: p then none else fs.node? p := by
  induction entries generalizing fs with
  | nil => simp
  | cons e entries ih =>
      rw [List.foldl_cons, ih, node?_remove (by simp)]
      by_cases hhere : q ++ [e.1] <+: p
      · simp [hhere]
      · rw [if_neg hhere]
        refine if_congr ?_ rfl rfl
        simp [hhere]

/-- Nothing is left below a place that was cleared. -/
theorem node?_clear_below {rel : Place} (hrel : rel ≠ []) :
    (fs.clear q).node? (q ++ rel) = none := by
  rw [clear, node?_foldl_remove]
  split_ifs with hremoved
  · rfl
  cases hn : fs.node? (q ++ rel) with
  | none => rfl
  | some n =>
      obtain ⟨s, rest, kind, rfl, hlisted⟩ := exists_mem_children hrel hn
      exact absurd ⟨(s, kind), hlisted, by simp⟩ hremoved

/-- Clearing a directory leaves what does not lie below it. -/
theorem node?_clear_of_not_below {r : Place} (h : ∀ rel, rel ≠ [] → r ≠ q ++ rel) :
    (fs.clear q).node? r = fs.node? r := by
  rw [clear, node?_foldl_remove, if_neg]
  rintro ⟨e, -, rest, rfl⟩
  exact h (e.1 :: rest) (by simp) (by simp)

/-- It leaves the working directory where it is if that does not lie there. -/
theorem workDir?_clear (h : ∀ d, fs.workDir? = some d → ¬ q <+: d) :
    (fs.clear q).workDir? = fs.workDir? := by
  have hfold : ∀ entries : List (String × Kind), ∀ fs : FileSystem,
      (∀ d, fs.workDir? = some d → ¬ q <+: d) →
      (entries.foldl (fun fs e => fs.remove (q ++ [e.1])) fs).workDir? = fs.workDir? := by
    intro entries
    induction entries with
    | nil => exact fun _ _ => rfl
    | cons e entries ih =>
        intro fs h
        have hstep : (fs.remove (q ++ [e.1])).workDir? = fs.workDir? :=
          workDir?_remove fun d hd hprefix => h d hd ((List.prefix_append _ _).trans hprefix)
        rw [List.foldl_cons, ih _ (hstep ▸ h), hstep]
  exact hfold _ fs h

/-- An empty directory with a name is removed. -/
theorem removeDir_of_empty (hs : Location.IsName s)
    (hkept : fs.lead .kept (dir.child s) = .ok (.arrived q))
    (hdirectory : fs.node? q = some .directory)
    (hempty : ∀ rel, rel ≠ [] → fs.node? (q ++ rel) = none) :
    fs.removeDir (dir.child s) = .ok (fs.remove q) := by
  obtain ⟨hcheck, hadrift, hfollow⟩ := lead_eq_arrived_iff.mp hkept
  have hlast : (dir.child s).segments.getLast? = some s := by
    rw [Path.segments_child hs, List.getLast?_concat]
  have hpursue : fs.pursue .kept (dir.child s) (dir.child s).segments = .ok (.arrived q) := by
    rw [steps, Path.endsInSlash_child hs] at hfollow
    rw [pursue, hadrift]
    exact hfollow
  have hchildren : fs.children q = [] := by
    refine List.eq_nil_iff_forall_not_mem.mpr fun e he => ?_
    obtain ⟨n, hn, -⟩ := mem_children.mp he
    rw [hempty [e.1] (by simp)] at hn
    cases hn
  rw [removeDir, hcheck, hlast]
  simp only [bind, Except.bind]
  split
  · next h => cases h
  · next h => exact absurd (Option.some.inj h) hs.2.1
  · next h => exact absurd (Option.some.inj h) hs.2.2.1
  · rw [hpursue]
    simp [isDirectoryAt_iff.mpr hdirectory, hchildren, pure, Except.pure]

/-- **A directory with a name is removed with all that it holds,** if it was empty once and files
have only been added since. What was there at first is still there when the directory is cleared. -/
theorem outcome_removeAll (hs : Location.IsName s) (hempty : base.EmptyAt (dir.child s) q)
    (hkept : base.lead .kept (dir.child s) = .ok (.arrived q))
    (hwork : ∀ d, base.workDir? = some d → ¬ q <+: d)
    (hgrown : Grows (fun _ => False) base fs) :
    (outcome (removeAll (dir.child s)) fs).2 = (fs.clear q).remove q := by
  have hwork' : ∀ d, fs.workDir? = some d → ¬ q <+: d := hgrown.workDir ▸ hwork
  have hdirectory := hgrown.directory hempty.directory
  have hcleared : Grows (fun _ => False) base (fs.clear q) := by
    refine ⟨(workDir?_clear hwork').trans hgrown.workDir, fun {r n} hn => .inl ?_⟩
    rw [node?_clear_of_not_below]
    · exact (hgrown.keeps hn).resolve_right fun hw => hw.1
    · rintro rel hrel rfl
      rw [hempty.empty rel hrel] at hn
      cases hn
  have hremoved := removeDir_of_empty hs (hcleared.lead hkept)
    (hcleared.directory hempty.directory) fun rel hrel => node?_clear_below hrel
  rw [removeAll, Action.look]
  simp [outcome_bind, hgrown.lead hkept, isDirectoryAt_iff.mpr hdirectory, hremoved]

/-- What is left after a directory was removed with all that it holds. -/
theorem node?_remove_clear (hq : q ≠ []) (r : Place) :
    ((fs.clear q).remove q).node? r = if q <+: r then none else fs.node? r := by
  rw [node?_remove hq]
  refine ite_congr rfl (fun _ => rfl) fun hout => node?_clear_of_not_below fun rel _ hr => hout ?_
  exact ⟨rel, hr.symm⟩

end FileSystem

open FileSystem

namespace RunHome

variable {s : Surroundings} {w : World} {home : RunHome}

/-! ### Preparing a home -/

/-- The names of temporary homes are names. -/
theorem isName_nameStart_append {rest : String} (h : '/' ∉ rest.toList) :
    Location.IsName (nameStart ++ rest) := by
  have hchars : (nameStart ++ rest).toList = nameStart.toList ++ rest.toList := by simp
  have hlength : 3 ≤ (nameStart ++ rest).toList.length := by simp [nameStart]
  have hslash : '/' ∉ (nameStart ++ rest).toList := by
    rw [hchars, List.mem_append, not_or]
    exact ⟨by decide, h⟩
  refine ⟨?_, ?_, ?_, hslash⟩ <;>
  · intro heq
    rw [heq] at hlength
    simp at hlength

/-- The name of a temporary home is the name of something. -/
theorem isName_temporaryName (n : Nat) : Location.IsName (temporaryName n) := by
  refine isName_nameStart_append fun hslash => ?_
  rw [String.toList_ofList, List.mem_append] at hslash
  rcases hslash with hzero | hdigit
  · exact absurd (List.eq_of_mem_replicate hzero) (by decide)
  · rw [Nat.repr, String.toList_ofList] at hdigit
    have hdigit' := Nat.isDigit_of_mem_toDigits (by decide) (by decide) hdigit
    revert hdigit'
    decide

/-- A temporary home is made under a name in the directory for temporary files. -/
theorem exists_freePath (s : Surroundings) (fs : FileSystem) :
    ∃ name, Location.IsName name ∧ freePath s fs = s.tempDir.child name := by
  rw [freePath]
  cases hfound : List.find? _ _ with
  | none => exact ⟨nameStart, by decide, rfl⟩
  | some path =>
      obtain ⟨n, -, rfl⟩ := List.mem_map.mp (List.mem_of_find?_eq_some hfound)
      exact ⟨temporaryName n, isName_temporaryName n, Option.getD_some⟩

/-- **What a home is when it is prepared**: an empty directory that was given, with all files as
they were, or one that was just made under a name in the directory for temporary files. A home that
cannot be prepared leaves all files as they were. -/
theorem prepare_spec (s : Surroundings) (requested? : Option Path) (w : World) :
    (∃ e, outcome (prepare s requested?) w = (.error e, w)) ∨
      (∃ dir, requested? = some dir ∧ w.files.CanHouse dir ∧
        outcome (prepare s requested?) w = (.ok ⟨dir, false⟩, w)) ∨
      ∃ name fs, requested? = none ∧ Location.IsName name ∧
        w.files.createDir (s.tempDir.child name) = .ok fs ∧
        outcome (prepare s requested?) w =
          (.ok ⟨s.tempDir.child name, true⟩, { w with files := fs }) := by
  cases requested? with
  | some dir =>
      rw [prepare]
      rw [existing]
      rw [outcome_bind_of_ok (outcome_files w)]
      split_ifs with hdir
      · exact .inl ⟨_, rfl⟩
      cases hlist : w.files.list dir with
      | error e => exact .inl ⟨_, rfl⟩
      | ok entries =>
          cases entries with
          | nil => exact .inr (.inl ⟨dir, rfl, canHouse_of_list hlist, rfl⟩)
          | cons e entries => exact .inl ⟨_, rfl⟩
  | none =>
      obtain ⟨name, hname, hpath⟩ := exists_freePath s w.files
      rw [prepare]
      rw [makeTemporary]
      rw [outcome_bind_of_ok (outcome_files w)]
      cases hcreate : w.files.createDir (s.tempDir.child name) with
      | error e =>
          refine .inl ⟨.io e, ?_⟩
          simp only [hpath, outcome_bind, outcome_effect_onFiles, outcome_mapFailure, Action.change,
            outcome_get, hcreate]
          rfl
      | ok fs =>
          refine .inr (.inr ⟨name, fs, rfl, hname, hcreate, ?_⟩)
          simp only [hpath, outcome_bind, outcome_effect_onFiles, outcome_mapFailure, Action.change,
            outcome_get, hcreate]
          rfl

/-- A home that was just prepared is an empty directory. -/
theorem canHouse_of_prepare {requested? : Option Path} {w₀ : World} (hwork : w₀.files.WorkDirStands)
    (h : outcome (prepare s requested?) w₀ = (.ok home, w)) :
    w.files.CanHouse home.path ∧ w.files.WorkDirStands := by
  rcases prepare_spec s requested? w₀ with
    ⟨f, hfails⟩ | ⟨given, -, hhouse, hgiven⟩ | ⟨name, fs, -, hname, hcreate, htemporary⟩
  · rw [h] at hfails
    cases hfails
  · rw [h] at hgiven
    cases hgiven
    exact ⟨hhouse, hwork⟩
  · rw [h] at htemporary
    cases htemporary
    have hgrows : Grows (fun _ => False) _ _ := grows_createDir hcreate
    refine ⟨.inr ?_, hwork.grows hgrows⟩
    obtain ⟨q, hne, -, habove, rfl, hplace, -⟩ := createDir_spec hcreate
    have hput : ∀ p, (w₀.files.put q .directory).node? p =
        if q <+: p then if p = q then some .directory else none else w₀.files.node? p :=
      fun p => node?_put hne habove
    refine ⟨q, hplace, by rw [hput]; simp, fun rel hrel => ?_⟩
    rw [hput, if_pos (List.prefix_append _ _), if_neg (by simpa using hrel)]

/-- Preparing a home gives nothing a name that is not allowed. -/
theorem named_of_prepare {requested? : Option Path} {w₀ : World} (hnamed : w₀.files.Named)
    (h : outcome (prepare s requested?) w₀ = (.ok home, w)) : w.files.Named := by
  rcases prepare_spec s requested? w₀ with
    ⟨f, hfails⟩ | ⟨given, -, -, hgiven⟩ | ⟨name, fs, -, hname, hcreate, htemporary⟩
  · rw [h] at hfails
    cases hfails
  · rw [h] at hgiven
    cases hgiven
    exact hnamed
  · rw [h] at htemporary
    cases htemporary
    obtain ⟨-, -, -, -, -, -, hnamed'⟩ := emptyAt_of_createDir hnamed hname hcreate
    exact hnamed'

/-! ### Giving up a home -/

/-- **What is left once a temporary home is given up**: everything but what stands at the place
where it was made. -/
theorem dispose_temporary {base : FileSystem} {name : String} {dir : Path} {q : Place}
    (hname : Location.IsName name) (hempty : base.EmptyAt (dir.child name) q) (hq : q ≠ [])
    (hkept : base.lead .kept (dir.child name) = .ok (.arrived q))
    (hwork : ∀ d, base.workDir? = some d → ¬ q <+: d)
    (hgrown : Grows (fun _ => False) base w.files) :
    (dispose ⟨dir.child name, true⟩ w).files.workDir? = w.files.workDir? ∧
      ∀ r, (dispose ⟨dir.child name, true⟩ w).files.node? r =
        if q <+: r then none else w.files.node? r := by
  have hfiles : (dispose ⟨dir.child name, true⟩ w).files = (w.files.clear q).remove q :=
    outcome_removeAll hname hempty hkept hwork hgrown
  have hcleared := workDir?_clear (hgrown.workDir ▸ hwork)
  refine ⟨?_, fun r => ?_⟩
  · rw [hfiles, workDir?_remove (hcleared ▸ hgrown.workDir ▸ hwork), hcleared]
  · rw [hfiles, node?_remove_clear hq]

end RunHome

end RealmBoot
