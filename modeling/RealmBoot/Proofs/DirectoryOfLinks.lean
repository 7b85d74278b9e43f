import RealmBoot.Proofs.LongerPaths

/-!
# A Directory of Links

Links to files are made in a directory one after another, and some are exchanged for others. A file
that a link leads to may itself be reached over a link of the same directory, so exchanging one of
them can change where another one leads, and links can come to lead round in a circle. What each of
them keeps is that it leads to a file in the end, or to another link of the directory. Followed from
one to the next they lead to a file, unless the number of links runs out first.

## Main results

* `FileSystem.Reaches.relinks`: what leads to a file or a link of the directory still does so when
  links of the directory are made or exchanged.
* `FileSystem.Reaches.follow`: following it leads to a file or takes too many links.
* `FileSystem.reaches_of_follow`: whatever leads to a file is of this kind.
-/

namespace RealmBoot

namespace FileSystem

variable {fs fs' : FileSystem} {P here base f : Place} {trail todo rest : List String}
  {target : Path} {r : Stretch} {links : Nat}

/-! ### Exchanging links -/

/-- All that stood in the first file system stands in the second one, except that links in the
directory `P` may be other links. -/
structure Relinks (P : Place) (fs fs' : FileSystem) : Prop where
  /-- What is no link of the directory is kept. -/
  keeps : ∀ {p : Place} {n : Node}, fs.node? p = some n →
    fs'.node? p = some n ∨
      (∃ s, p = P ++ [s]) ∧ n.kind = .link ∧ ∃ target, fs'.node? p = some (.link target)

/-- What is no link is kept. -/
theorem Relinks.of_noLink (h : Relinks P fs fs') {p : Place} {n : Node}
    (hn : fs.node? p = some n) (hkind : n.kind ≠ .link) : fs'.node? p = some n :=
  (h.keeps hn).resolve_right fun hlink => hkind hlink.2.1

/-- A stretch that arrives somewhere arrives there when links are exchanged. -/
theorem Relinks.stretches_arrived (h : Relinks P fs fs')
    (hs : fs.Stretches .followed trail todo r) (hr : r = .done (.arrived f)) :
    fs'.Stretches .followed trail todo r := by
  induction hs with
  | nil trail => exact .nil trail
  | dot _ ih => exact .dot (ih hr)
  | up _ ih => exact .up (ih hr)
  | into hlooked hnode _ ih => exact .into hlooked (h.of_noLink hnode (by simp [Node.kind])) (ih hr)
  | arrived hlooked hnode hkind =>
      refine .arrived hlooked (h.of_noLink hnode fun hlink => ?_) hkind
      rcases hkind with hfile | ⟨-, ⟨⟩⟩
      cases hlink.symm.trans hfile
  | tooLong | vacant | missing | blocked | crossing => cases hr

/-- A stretch that comes to a link comes to a link there when links are exchanged, and to the same
one unless it stands in the directory. -/
theorem Relinks.stretches_crossing (h : Relinks P fs fs')
    (hs : fs.Stretches .followed trail todo r) (hr : r = .crossing base target rest) :
    ∃ target', (base ≠ P → target' = target) ∧
      fs'.Stretches .followed trail todo (.crossing base target' rest) := by
  induction hs with
  | dot _ ih =>
      obtain ⟨target', hsame, hon⟩ := ih hr
      exact ⟨target', hsame, .dot hon⟩
  | up _ ih =>
      obtain ⟨target', hsame, hon⟩ := ih hr
      exact ⟨target', hsame, .up hon⟩
  | into hlooked hnode _ ih =>
      obtain ⟨target', hsame, hon⟩ := ih hr
      exact ⟨target', hsame, .into hlooked (h.of_noLink hnode (by simp [Node.kind])) hon⟩
  | @crossing trail rest s target hlooked hnode hfollowed =>
      cases hr
      rcases h.keeps hnode with hkept | ⟨⟨t, hplace⟩, -, target', hlink⟩
      · exact ⟨target, fun _ => rfl, .crossing hlooked hkept hfollowed⟩
      · have hbase : trail.reverse = P := by
          rw [List.reverse_cons] at hplace
          exact (List.append_inj' hplace rfl).1
        exact ⟨target', fun hne => absurd hbase hne, .crossing hlooked hlink hfollowed⟩
  | nil | arrived | tooLong | vacant | missing | blocked => cases hr

/-! ### Leading to files -/

/-- Segments lead from a directory to a file, or to a link of the directory `P` and no further. -/
inductive Reaches (fs : FileSystem) (P : Place) : Place → List String → Prop where
  /-- They lead to a file before a link has to be followed. -/
  | file {here f : Place} {todo : List String} {bytes : ByteArray} {time : Stamp}
      (directory : fs.node? here = some .directory)
      (stretch : fs.Stretches .followed here.reverse todo (.done (.arrived f)))
      (node : fs.node? f = some (.file bytes time)) : Reaches fs P here todo
  /-- They end with a link of the directory. -/
  | link {here : Place} {todo : List String} {target : Path}
      (directory : fs.node? here = some .directory)
      (stretch : fs.Stretches .followed here.reverse todo (.crossing P target [])) :
      Reaches fs P here todo
  /-- They go on where another link leads. -/
  | on {here base : Place} {todo rest : List String} {target : Path}
      (directory : fs.node? here = some .directory)
      (stretch : fs.Stretches .followed here.reverse todo (.crossing base target rest))
      (elsewhere : base ≠ P) (on : Reaches fs P (start base target) (steps target ++ rest)) :
      Reaches fs P here todo

/-- **What leads to a file or a link of a directory still does so when links of the directory are
made or exchanged.** -/
theorem Reaches.relinks (hr : fs.Reaches P here todo) (h : Relinks P fs fs') :
    fs'.Reaches P here todo := by
  have hkept : ∀ {p : Place}, fs.node? p = some .directory → fs'.node? p = some .directory :=
    fun hdir => h.of_noLink hdir (by simp [Node.kind])
  induction hr with
  | file hdir hstretch hnode =>
      exact .file (hkept hdir) (h.stretches_arrived hstretch rfl)
        (h.of_noLink hnode (by simp [Node.kind]))
  | link hdir hstretch =>
      obtain ⟨target', -, hcross⟩ := h.stretches_crossing hstretch rfl
      exact .link (hkept hdir) hcross
  | on hdir hstretch helsewhere _ ih =>
      obtain ⟨target', hsame, hcross⟩ := h.stretches_crossing hstretch rfl
      obtain rfl := hsame helsewhere
      exact .on (hkept hdir) hcross helsewhere ih

/-- All links of a directory lead to files or to links of the directory, and their texts start at
the root. -/
def LinksReach (fs : FileSystem) (P : Place) : Prop :=
  ∀ s target, fs.node? (P ++ [s]) = some (.link target) →
    target.isAbsolute = true ∧ fs.Reaches P [] (steps target)

/-- A stretch that comes to a link comes to one that stands there. -/
theorem Stretches.exists_link (h : fs.Stretches .followed trail todo r)
    (hr : r = .crossing base target rest) : ∃ s, fs.node? (base ++ [s]) = some (.link target) := by
  induction h with
  | dot _ ih => exact ih hr
  | up _ ih => exact ih hr
  | into _ _ _ ih => exact ih hr
  | @crossing trail rest s target _ hnode =>
      cases hr
      exact ⟨s, List.reverse_cons ▸ hnode⟩
  | nil | arrived | tooLong | vacant | missing | blocked => cases hr

variable (hlinks : fs.LinksReach P)
include hlinks

/-- **Following what leads to files or links of a directory leads to a file, or takes too many
links.** The induction is on the links that may still be followed: behind each of them, in the
directory or elsewhere, there is one less. -/
theorem Reaches.follow (h : fs.Reaches P here todo) (links : Nat) :
    fs.follow .followed links here todo = .error .tooManyLinks ∨
      ∃ f bytes time, fs.follow .followed links here todo = .ok (.arrived f) ∧
        fs.node? f = some (.file bytes time) := by
  induction links generalizing here todo with
  | zero =>
      cases h with
      | file hdir hstretch hnode =>
          refine .inr ⟨_, _, _, ?_, hnode⟩
          rw [follow_eq_resume hdir, stretch_eq_iff.mpr hstretch, resume]
      | link hdir hstretch | on hdir hstretch =>
          exact .inl (by rw [follow_eq_resume hdir, stretch_eq_iff.mpr hstretch, resume])
  | succ left ih =>
      cases h with
      | file hdir hstretch hnode =>
          refine .inr ⟨_, _, _, ?_, hnode⟩
          rw [follow_eq_resume hdir, stretch_eq_iff.mpr hstretch, resume]
      | link hdir hstretch =>
          rw [follow_followed_of_crossing hdir (stretch_eq_iff.mpr hstretch)]
          obtain ⟨s, hlink⟩ := hstretch.exists_link rfl
          obtain ⟨habsolute, hreaches⟩ := hlinks s _ hlink
          rw [start, if_pos habsolute, List.append_nil]
          exact ih hreaches
      | on hdir hstretch _ hon =>
          rw [follow_followed_of_crossing hdir (stretch_eq_iff.mpr hstretch)]
          exact ih hon

/-- **Whatever leads to a file leads to it, or to a link of the directory and no further.** Such a
link leads to no directory, so nothing can be found behind it. -/
theorem reaches_of_follow {bytes : ByteArray} {time : Stamp}
    (h : fs.follow .followed links here todo = .ok (.arrived f))
    (hf : fs.node? f = some (.file bytes time)) : fs.Reaches P here todo := by
  generalize hlead : Lead.arrived f = lead at h
  rw [follow_eq_ok_iff] at h
  induction h with
  | done hdir hstretch =>
      cases hlead
      exact .file hdir hstretch hf
  | @crossing left here base todo rest target lead hdir hstretch _ hon ih =>
      by_cases hbase : base = P
      · subst hbase
        cases rest with
        | nil => exact .link hdir hstretch
        | cons s rest =>
            obtain ⟨t, hlink⟩ := hstretch.exists_link rfl
            obtain ⟨habsolute, hreaches⟩ := hlinks t _ hlink
            have hfollow := follow_eq_ok_iff.mpr hon
            rw [start, if_pos habsolute] at hfollow
            obtain ⟨q, left', hthrough, -⟩ := through_of_append (by simp) hfollow
            have hq := hthrough.directory
            rcases hreaches.follow hlinks left with hmany | ⟨f', bytes', time', hfile, hnode⟩
            · rw [hthrough.arrives] at hmany
              cases hmany
            · rw [hthrough.arrives] at hfile
              cases hfile
              rw [hnode] at hq
              cases hq
      · exact .on hdir hstretch hbase (ih hlead)

end FileSystem

end RealmBoot
