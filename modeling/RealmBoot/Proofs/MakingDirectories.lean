import RealmBoot.Proofs.Growth
import RealmBoot.Proofs.LongerPaths

/-!
# Where Directories Are Made

Making a directory makes those above it too, if they are missing. What is made that way stands where
the path leads, or where a beginning of the path leads: nothing else is added, and nothing is taken
away. This module says so, and what the beginnings of a path are.

## Main results

* `Path.begins_take`: the first components of a path are a beginning of it.
* `FileSystem.follow_vacant_put`: a path that leads to a free name leads to what is put there.
* `FileSystem.createDirs_along`: what making a directory adds.
-/

namespace RealmBoot

/-! ### Beginnings of paths -/

namespace Path

/-- The first path is a beginning of the second one: it starts where that starts, and its segments
are the first ones of that, some `.` aside. -/
structure Begins (b p : Path) : Prop where
  /-- Both start at the root, or neither does. -/
  absolute : b.isAbsolute = p.isAbsolute
  /-- The segments of the one are some of the other. -/
  segments : ∃ before after, p.segments = before ++ after ∧ FileSystem.FewerDots before b.segments

/-- A path begins with itself. -/
theorem Begins.refl (p : Path) : Begins p p :=
  ⟨rfl, p.segments, [], (List.append_nil _).symm, .refl _⟩

/-- The components of segments are written as those that are no dots. -/
theorem map_text_ofSegment (segments : List String) :
    (segments.filterMap Component.ofSegment?).map Component.text = segments.filter (· ≠ ".") := by
  induction segments with
  | nil => rfl
  | cons s segments ih =>
      rw [List.filterMap_cons, Component.ofSegment?]
      split_ifs with hdot hup
      · rw [List.filter_cons_of_neg (by simpa using hdot)]
        exact ih
      · rw [List.filter_cons_of_pos (by simpa using hdot), List.map_cons, ih, hup]
        rfl
      · rw [List.filter_cons_of_pos (by simpa using hdot), List.map_cons, ih]
        rfl

/-- The first segments that are no dots are those of the first segments. -/
theorem exists_take_filter (segments : List String) (k : Nat) :
    ∃ before after, segments = before ++ after ∧
      before.filter (· ≠ ".") = (segments.filter (· ≠ ".")).take k := by
  induction segments generalizing k with
  | nil => exact ⟨[], [], rfl, by simp⟩
  | cons s segments ih =>
      by_cases hdot : s = "."
      · obtain ⟨before, after, rfl, hbefore⟩ := ih k
        refine ⟨s :: before, after, rfl, ?_⟩
        rw [List.filter_cons_of_neg (by simpa using hdot), hbefore,
          List.filter_cons_of_neg (by simpa using hdot)]
      · cases k with
        | zero => exact ⟨[], s :: segments, rfl, rfl⟩
        | succ k =>
            obtain ⟨before, after, rfl, hbefore⟩ := ih k
            refine ⟨s :: before, after, rfl, ?_⟩
            rw [List.filter_cons_of_pos (by simpa using hdot), hbefore,
              List.filter_cons_of_pos (by simpa using hdot), List.take_succ_cons]

/-- The components of a path as they are written, a leading slash aside. -/
theorem of_mem_take_filter {p : Path} {segments : List String} {s : String} {k : Nat}
    (hsub : ∀ s ∈ segments, s ∈ p.segments)
    (hs : s ∈ (segments.filter (· ≠ ".")).take k) : s ≠ "" ∧ '/' ∉ s.toList := by
  have hmem := of_mem_segments (hsub s (List.mem_filter.mp (List.mem_of_mem_take hs)).1)
  exact ⟨hmem.1, hmem.2.1⟩

/-- Components other than the root are written one after another. -/
theorem ofComponents_of_relative {cs : List Component} (h : .root ∉ cs) :
    ofComponents cs = ⟨Text.joined "/" (cs.map Component.text)⟩ := by
  cases cs with
  | nil => rfl
  | cons c cs =>
      cases c with
      | root => exact absurd List.mem_cons_self h
      | here => rfl
      | up => rfl
      | name s => rfl

/-- No segment is a root. -/
theorem root_notMem_ofSegment (segments : List String) :
    .root ∉ segments.filterMap Component.ofSegment? := by
  intro h
  obtain ⟨s, -, hs⟩ := List.mem_filterMap.mp h
  rw [Component.ofSegment?] at hs
  split_ifs at hs <;> cases hs

/-- **The first components of a path are a beginning of it.** -/
theorem begins_take (p : Path) (k : Nat) : Begins (ofComponents (p.components.take (k + 1))) p := by
  cases habsolute : p.isAbsolute with
  | true =>
      have hwritten : ofComponents (p.components.take (k + 1)) =
          ⟨"/" ++ Text.joined "/" ((p.segments.filter (· ≠ ".")).take k)⟩ := by
        rw [components, if_pos habsolute, List.take_succ_cons, ofComponents, List.map_take,
          map_text_ofSegment]
      have hplain := fun s => @of_mem_take_filter p p.segments s k fun _ => id
      have hsegments := segments_slash "" (Text.joined "/" ((p.segments.filter (· ≠ ".")).take k))
      rw [String.empty_append, segments_empty, List.nil_append, segments_joined hplain] at hsegments
      rw [hwritten]
      obtain ⟨before, after, hsplit, hbefore⟩ := exists_take_filter p.segments k
      refine ⟨by rw [habsolute]; simp [isAbsolute], before, after, hsplit, ?_⟩
      rw [hsegments, ← hbefore]
      exact FileSystem.fewerDots_filter before
  | false =>
      rw [components, if_neg (by simp [habsolute])]
      split
      · next rest hdot =>
          have hplain : ∀ s ∈ "." :: (rest.filter (· ≠ ".")).take k, s ≠ "" ∧ '/' ∉ s.toList := by
            intro s hs
            rcases List.mem_cons.mp hs with rfl | hs
            · decide
            · exact of_mem_take_filter (p := p) (fun s hs => hdot ▸ List.mem_cons_of_mem _ hs) hs
          have hroot : .root ∉ Component.here :: (rest.filterMap Component.ofSegment?).take k := by
            intro h
            rcases List.mem_cons.mp h with h | h
            · cases h
            · exact root_notMem_ofSegment rest (List.mem_of_mem_take h)
          rw [List.take_succ_cons, ofComponents_of_relative hroot, List.map_cons, List.map_take,
            map_text_ofSegment]
          obtain ⟨before, after, hsplit, hbefore⟩ := exists_take_filter rest k
          refine ⟨(isAbsolute_joined hplain).trans habsolute.symm, "." :: before, after, ?_, ?_⟩
          · rw [hdot, hsplit, List.cons_append]
          · rw [Component.text, segments_joined hplain, ← hbefore]
            exact .keep "." (FileSystem.fewerDots_filter before)
      · have hplain := fun s => @of_mem_take_filter p p.segments s (k + 1) fun _ => id
        have hroot : .root ∉ (p.segments.filterMap Component.ofSegment?).take (k + 1) :=
          fun h => root_notMem_ofSegment p.segments (List.mem_of_mem_take h)
        rw [ofComponents_of_relative hroot, List.map_take, map_text_ofSegment]
        obtain ⟨before, after, hsplit, hbefore⟩ := exists_take_filter p.segments (k + 1)
        refine ⟨(isAbsolute_joined hplain).trans habsolute.symm, before, after, hsplit, ?_⟩
        rw [segments_joined hplain, ← hbefore]
        exact FileSystem.fewerDots_filter before

end Path

namespace FileSystem

variable {fs fs' : FileSystem} {last : AtEnd} {links : Nat} {here q : Place}
  {trail todo : List String} {b p : Path}

/-! ### One directory -/

/-- **A path that leads to a free name leads to the directory put there.** -/
theorem follow_vacant_put (h : fs.follow last links here todo = .ok (.vacant q)) :
    (fs.put q .directory).follow last links here todo = .ok (.arrived q) := by
  obtain ⟨hq, hfree, habove⟩ := follow_vacant h
  have hgrows : Grows (fun _ => False) fs (fs.put q .directory) := grows_put hq hfree habove
  have hnode : (fs.put q .directory).node? q = some .directory := by
    rw [node?_put hq habove]
    simp
  exact hgrows.follow_vacant hnode (by decide) h

/-- A path leads to the directory its segments lead to. -/
theorem lead_of_segments (hcheck : checkPath p = .ok ()) (hadrift : fs.isAdrift p = false)
    (hfollow : fs.follow .followed linkLimit (start fs.workLocation.names p) p.segments =
      .ok (.arrived q)) (hq : fs.node? q = some .directory) :
    fs.lead .followed p = .ok (.arrived q) := by
  refine lead_eq_arrived_iff.mpr ⟨hcheck, hadrift, ?_⟩
  rw [steps]
  split_ifs with hslash
  · obtain ⟨left, hthrough⟩ := through_of_arrived hfollow hq
    rw [hthrough.onward .followed ["."] (by simp)]
    exact follow_dot hq
  · exact hfollow

/-- **A directory that was made stands where its path leads,** and nothing stood there before. -/
theorem createDir_spec (h : fs.createDir p = .ok fs') :
    ∃ q, q ≠ [] ∧ fs.node? q = none ∧ fs.node? q.dropLast = some .directory ∧
      fs' = fs.put q .directory ∧ fs'.place p = .ok q ∧
      fs'.follow .kept linkLimit (start fs.workLocation.names p) p.segments =
        .ok (.arrived q) := by
  obtain ⟨hcheck, hadrift, q, hfollow, rfl⟩ := createDir_eq_ok_iff.mp h
  obtain ⟨hq, hfree, habove⟩ := follow_vacant hfollow
  have hnode : (fs.put q .directory).node? q = some .directory := by
    rw [node?_put hq habove]
    simp
  have hkept := follow_vacant_put hfollow
  refine ⟨q, hq, hfree, habove, rfl, place_eq_ok_iff.mpr ?_, hkept⟩
  refine lead_of_segments hcheck hadrift ?_ hnode
  refine Eq.trans (follow_followed fun q' target hq' => ?_) hkept
  rw [show (fs.put q .directory).workLocation = fs.workLocation from rfl, hkept] at hq'
  cases hq'
  rw [hnode]
  simp

/-! ### A directory and those above it -/

/-- What each making of a beginning of a path keeps is kept by making a directory under the path and
those above it. -/
theorem keeps_createDirs_of_begins {I : FileSystem → Prop}
    (hstep : ∀ b, b.Begins p → ∀ fs fs' : FileSystem, I fs → fs.createDir b = .ok fs' → I fs') :
    Keeps I (createDirs p) := by
  refine keeps_createDirs fun b hb => hstep b ?_
  rcases hb with rfl | ⟨k, rfl⟩
  · exact .refl b
  · exact Path.begins_take p k

/-- A path or a beginning of it leads to the place. -/
def Along (fs : FileSystem) (p : Path) (q : Place) : Prop := ∃ b, b.Begins p ∧ fs.place b = .ok q

/-- A path leads along what it led along before files were added. -/
theorem Along.grows {written : Place → Prop} (hgrows : Grows written fs fs')
    (h : fs.Along p q) : fs'.Along p q := by
  obtain ⟨b, hb, hplace⟩ := h
  exact ⟨b, hb, place_eq_ok_iff.mpr (hgrows.lead (place_eq_ok_iff.mp hplace))⟩

/-- **What making a directory adds**: directories where the path leads, or a beginning of it. All
that was there stays. -/
theorem createDirs_along (p : Path) (fs : FileSystem) :
    Grows (fun _ => False) fs (outcome (createDirs p) fs).2 ∧
      ∀ q n, (outcome (createDirs p) fs).2.node? q = some n →
        fs.node? q = some n ∨ n = .directory ∧ (outcome (createDirs p) fs).2.Along p q := by
  refine keeps_createDirs_of_begins (I := fun fs₁ => Grows (fun _ => False) fs fs₁ ∧ ∀ q n,
    fs₁.node? q = some n → fs.node? q = some n ∨ n = .directory ∧ fs₁.Along p q) ?_ fs
    ⟨.refl _ fs, fun q n hn => .inl hn⟩
  rintro b hb fs₁ fs₂ ⟨hgrown, hadded⟩ hcreate
  have hgrows : Grows (fun _ => False) fs₁ fs₂ := grows_createDir hcreate
  obtain ⟨q₀, hne, -, habove, rfl, hplace, -⟩ := createDir_spec hcreate
  refine ⟨hgrown.trans hgrows, fun q n hn => ?_⟩
  have hput := hn
  rw [node?_put hne habove] at hput
  split_ifs at hput with hprefix hsame
  · cases hput
    exact .inr ⟨rfl, b, hb, hsame ▸ hplace⟩
  · rcases hadded q n hput with hold | ⟨hdirectory, halong⟩
    · exact .inl hold
    · exact .inr ⟨hdirectory, halong.grows hgrows⟩

/-- A place is as it was before a directory was made, or one of the directories that were added. -/
theorem node?_createDirs (p : Path) (fs : FileSystem) (q : Place) :
    (outcome (createDirs p) fs).2.node? q = fs.node? q ∨
      fs.node? q = none ∧ (outcome (createDirs p) fs).2.node? q = some .directory ∧
        (outcome (createDirs p) fs).2.Along p q := by
  obtain ⟨hgrows, hadded⟩ := createDirs_along p fs
  cases hq : fs.node? q with
  | some n => exact .inl ((hgrows.keeps hq).resolve_right fun h => h.1)
  | none =>
      cases hn : (outcome (createDirs p) fs).2.node? q with
      | none => exact .inl rfl
      | some n =>
          rcases hadded q n hn with hold | ⟨rfl, halong⟩
          · rw [hq] at hold
            cases hold
          · exact .inr ⟨rfl, rfl, halong⟩

end FileSystem

end RealmBoot
