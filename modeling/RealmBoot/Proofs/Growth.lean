import RealmBoot.Proofs.Following
import RealmBoot.Proofs.Outcome

/-!
# Growing File Systems

Making directories and writing files leaves in place what is there, apart from the bytes of the
files that are written. Paths that led to something then still lead there, so what could be read
can still be read. This module fixes that relation between two file systems and shows that the
program's ways of making directories stay within it.

## Main results

* `FileSystem.Grows.lead`: a path that leads to a node leads to the same place after growth.
* `FileSystem.Grows.read`: a file that was not written still has its bytes.
* `FileSystem.grows_createDirs`: making a directory and those above it only adds directories.
-/

namespace RealmBoot

namespace FileSystem

/-- A path denotes a directory if it leads to one, or to a working directory that is gone. -/
theorem isDirectory_iff {fs : FileSystem} {p : Path} :
    fs.isDirectory p = true ↔ fs.lead .followed p = .ok .adrift ∨
      ∃ q, fs.lead .followed p = .ok (.arrived q) ∧ fs.node? q = some .directory := by
  rw [isDirectory, stat]
  cases fs.lead .followed p with
  | error e => simp [bind, Except.bind, Except.toOption]
  | ok lead =>
      cases lead with
      | vacant q => simp [bind, Except.bind, nodeAt, Except.toOption]
      | adrift => simp [bind, Except.bind, nodeAt, Except.toOption, Node.kind]
      | arrived q =>
          cases hn : fs.node? q with
          | none => simp [bind, Except.bind, nodeAt, hn, Except.toOption]
          | some n => cases n <;> simp [bind, Except.bind, nodeAt, hn, Except.toOption, Node.kind]

/-- The second file system has everything the first one has, except that the files at some places
may have been written anew. -/
structure Grows (written : Place → Prop) (fs fs' : FileSystem) : Prop where
  /-- Relative paths start where they did. -/
  workDir : fs'.workDir? = fs.workDir?
  /-- What stands at a place stands there still, or is a file that was written. -/
  keeps : ∀ {p : Place} {n : Node}, fs.node? p = some n →
    fs'.node? p = some n ∨
      written p ∧ n.kind = .file ∧ ∃ bytes time, fs'.node? p = some (.file bytes time)

namespace Grows

variable {written : Place → Prop} {fs fs' fs₁ fs₂ fs₃ : FileSystem}

/-- A file system has grown from itself. -/
theorem refl (written : Place → Prop) (fs : FileSystem) : Grows written fs fs where
  workDir := rfl
  keeps h := .inl h

/-- What has grown from something that has grown has grown from the first. -/
theorem trans (h₁ : Grows written fs₁ fs₂) (h₂ : Grows written fs₂ fs₃) :
    Grows written fs₁ fs₃ where
  workDir := h₂.workDir.trans h₁.workDir
  keeps {p n} hn := by
    rcases h₁.keeps hn with hsame | ⟨hw, hfile, bytes, time, hnew⟩
    · exact h₂.keeps hsame
    · rcases h₂.keeps hnew with hsame | ⟨-, -, hnew'⟩
      · exact .inr ⟨hw, hfile, bytes, time, hsame⟩
      · exact .inr ⟨hw, hfile, hnew'⟩

/-- Directories stay directories. -/
theorem directory (h : Grows written fs fs') {p : Place} (hp : fs.node? p = some .directory) :
    fs'.node? p = some .directory := by
  rcases h.keeps hp with hsame | ⟨-, hkind, -⟩
  · exact hsame
  · cases hkind

/-! ### What paths lead to -/

/-- A walk that comes to a node or to a link comes there after growth. -/
theorem stretches (h : Grows written fs fs') {last : AtEnd} {trail todo : List String}
    {result : Stretch} (hstretch : fs.Stretches last trail todo result)
    (hfound : (∃ q, result = .done (.arrived q)) ∨ ∃ base target rest,
      result = .crossing base target rest) :
    fs'.Stretches last trail todo result := by
  induction hstretch with
  | nil trail => exact .nil trail
  | dot _ ih => exact .dot (ih hfound)
  | up _ ih => exact .up (ih hfound)
  | into hs hnode _ ih => exact .into hs (h.directory hnode) (ih hfound)
  | arrived hs hnode hkind =>
      rcases h.keeps hnode with hsame | ⟨-, -, bytes, time, hnew⟩
      · exact .arrived hs hsame hkind
      · exact .arrived hs hnew (.inl rfl)
  | crossing hs hnode hfollowed =>
      rcases h.keeps hnode with hsame | ⟨-, hkind, -⟩
      · exact .crossing hs hsame hfollowed
      · cases hkind
  | tooLong | vacant | missing | blocked => simp at hfound

/-- A path that is followed to a node leads to the same place after growth. -/
theorem follow (h : Grows written fs fs') {last : AtEnd} {links : Nat} {here q : Place}
    {todo : List String} (hlead : fs.follow last links here todo = .ok (.arrived q)) :
    fs'.follow last links here todo = .ok (.arrived q) := by
  rw [follow_eq_ok_iff] at hlead ⊢
  generalize hr : Lead.arrived q = lead at hlead
  induction hlead with
  | done hdir hdone => exact .done (h.directory hdir) (h.stretches hdone (.inl ⟨q, hr ▸ rfl⟩))
  | crossing hdir hcross hslash _ ih =>
      exact .crossing (h.directory hdir) (h.stretches hcross (.inr ⟨_, _, _, rfl⟩)) hslash (ih hr)

/-- A walk that comes to a free name comes to what stands there after growth, unless that is a
link. -/
theorem stretches_vacant (h : Grows written fs fs') {last : AtEnd} {trail todo : List String}
    {result : Stretch} {q : Place} {n : Node} (hnode : fs'.node? q = some n)
    (hlink : n.kind ≠ .link) (hstretch : fs.Stretches last trail todo result)
    (hvacant : result = .done (.vacant q)) :
    fs'.Stretches last trail todo (.done (.arrived q)) := by
  induction hstretch with
  | dot _ ih => exact .dot (ih hvacant)
  | up _ ih => exact .up (ih hvacant)
  | into hs hnode _ ih => exact .into hs (h.directory hnode) (ih hvacant)
  | vacant hs _ =>
      cases hvacant
      cases n with
      | file bytes time => exact .arrived hs hnode (.inl rfl)
      | link target => exact absurd rfl hlink
      | directory => exact .into hs hnode (.nil _)
  | nil | arrived | tooLong | missing | blocked | crossing => cases hvacant

/-- **A path that leads to a free name leads to what stands there after growth,** unless that is a
link. -/
theorem follow_vacant (h : Grows written fs fs') {last : AtEnd} {links : Nat} {here q : Place}
    {todo : List String} {n : Node} (hnode : fs'.node? q = some n) (hlink : n.kind ≠ .link)
    (hlead : fs.follow last links here todo = .ok (.vacant q)) :
    fs'.follow last links here todo = .ok (.arrived q) := by
  rw [follow_eq_ok_iff] at hlead ⊢
  generalize hr : Lead.vacant q = lead at hlead
  induction hlead with
  | done hdir hdone =>
      exact .done (h.directory hdir) (h.stretches_vacant hnode hlink hdone (hr ▸ rfl))
  | crossing hdir hcross hslash _ ih =>
      exact .crossing (h.directory hdir) (h.stretches hcross (.inr ⟨_, _, _, rfl⟩)) hslash (ih hr)

/-- **A path that leads to a node leads to the same place after growth.** -/
theorem lead (h : Grows written fs fs') {last : AtEnd} {p : Path} {q : Place}
    (hlead : fs.lead last p = .ok (.arrived q)) : fs'.lead last p = .ok (.arrived q) := by
  rw [FileSystem.lead] at hlead ⊢
  obtain ⟨⟨⟩, hcheck, hpursue⟩ := except_bind_eq_ok_iff.mp hlead
  refine except_bind_eq_ok_iff.mpr ⟨⟨⟩, hcheck, ?_⟩
  have hadrift : fs'.isAdrift p = fs.isAdrift p := by simp only [isAdrift, h.workDir]
  have hwork : fs'.workLocation = fs.workLocation := by simp only [workLocation, h.workDir]
  rw [pursue] at hpursue ⊢
  rw [hadrift, hwork]
  split_ifs at hpursue ⊢
  · exact h.follow hpursue
  · cases hpursue

/-- A path that leads to a working directory that is gone leads there after growth. -/
theorem lead_adrift (h : Grows written fs fs') {last : AtEnd} {p : Path}
    (hlead : fs.lead last p = .ok .adrift) : fs'.lead last p = .ok .adrift := by
  rw [FileSystem.lead] at hlead ⊢
  obtain ⟨⟨⟩, hcheck, hpursue⟩ := except_bind_eq_ok_iff.mp hlead
  refine except_bind_eq_ok_iff.mpr ⟨⟨⟩, hcheck, ?_⟩
  have hadrift : fs'.isAdrift p = fs.isAdrift p := by simp only [isAdrift, h.workDir]
  rw [pursue] at hpursue ⊢
  rw [hadrift]
  split_ifs at hpursue ⊢
  · exact absurd hpursue (follow_ne_adrift _ _ _ _)
  · rfl

/-- A path that denotes a directory denotes one after growth. -/
theorem isDirectory (h : Grows written fs fs') {p : Path} (hdir : fs.isDirectory p = true) :
    fs'.isDirectory p = true := by
  rcases isDirectory_iff.mp hdir with hadrift | ⟨q, hlead, hq⟩
  · exact isDirectory_iff.mpr (.inl (h.lead_adrift hadrift))
  · exact isDirectory_iff.mpr (.inr ⟨q, h.lead hlead, h.directory hq⟩)

/-- **A file that was not written can be read as before.** -/
theorem read (h : Grows written fs fs') {p : Path} {bytes : ByteArray}
    (hread : fs.read p = .ok bytes)
    (hspared : ∀ q, fs.lead .followed p = .ok (.arrived q) → ¬ written q) :
    fs'.read p = .ok bytes := by
  rw [FileSystem.read, stat] at hread ⊢
  obtain ⟨n, hstat, hbytes⟩ := except_bind_eq_ok_iff.mp hread
  refine except_bind_eq_ok_iff.mpr ⟨n, ?_, hbytes⟩
  obtain ⟨lead, hlead, hat⟩ := except_bind_eq_ok_iff.mp hstat
  cases lead with
  | vacant q => cases hat
  | adrift =>
      cases hat
      cases hbytes
  | arrived q =>
      refine except_bind_eq_ok_iff.mpr ⟨.arrived q, h.lead hlead, ?_⟩
      simp only [nodeAt] at hat ⊢
      cases hq : fs.node? q with
      | none => simp [hq] at hat
      | some n' =>
          rcases h.keeps hq with hsame | ⟨hw, -⟩
          · rw [hsame]
            simpa [hq] using hat
          · exact absurd hw (hspared q hlead)

end Grows

/-! ### Making directories -/

variable {fs fs' : FileSystem} {written : Place → Prop}

/-- A node put under a free name leaves everything else in place. -/
theorem grows_put {q : Place} {n : Node} (hq : q ≠ []) (hfree : fs.node? q = none)
    (hdir : fs.node? q.dropLast = some .directory) : Grows written fs (fs.put q n) where
  workDir := rfl
  keeps {p m} hm := by
    refine .inl ?_
    rw [node?_put hq hdir, if_neg, hm]
    intro hbelow
    rw [node?_of_free hfree hbelow] at hm
    cases hm

/-- When one directory can be made, and what that does. -/
theorem createDir_eq_ok_iff {p : Path} :
    fs.createDir p = .ok fs' ↔
      checkPath p = .ok () ∧ fs.isAdrift p = false ∧
        ∃ q, fs.follow .kept linkLimit (start fs.workLocation.names p) p.segments =
          .ok (.vacant q) ∧ fs.put q .directory = fs' := by
  rw [createDir]
  constructor
  · intro h
    obtain ⟨⟨⟩, hcheck, h⟩ := except_bind_eq_ok_iff.mp h
    obtain ⟨lead, hlead, hput⟩ := except_bind_eq_ok_iff.mp h
    cases lead with
    | arrived q => cases hput
    | adrift => cases hput
    | vacant q =>
        rw [pursue] at hlead
        split_ifs at hlead with hadrift
        · exact ⟨hcheck, by simpa using hadrift, q, hlead, Except.ok.inj hput⟩
        · cases hlead
  · rintro ⟨hcheck, hadrift, q, hfollow, rfl⟩
    refine except_bind_eq_ok_iff.mpr ⟨(), hcheck, except_bind_eq_ok_iff.mpr ⟨.vacant q, ?_, rfl⟩⟩
    rw [pursue, hadrift]
    exact hfollow

/-- Making a directory writes over nothing. -/
theorem grows_createDir {p : Path} (h : fs.createDir p = .ok fs') : Grows written fs fs' := by
  obtain ⟨-, -, q, hfollow, rfl⟩ := createDir_eq_ok_iff.mp h
  obtain ⟨hq, hfree, hdir⟩ := follow_vacant hfollow
  exact grows_put hq hfree hdir

/-- What each making of one directory keeps is kept by making one after those above it, if making
those keeps it. -/
theorem keeps_createDirAfter {I : FileSystem → Prop} {above : Action Fault Unit} {p : Path}
    (habove : Keeps I above)
    (hstep : ∀ fs fs' : FileSystem, I fs → fs.createDir p = .ok fs' → I fs') :
    Keeps I (createDirAfter above p) := by
  have hlast : ∀ e : Fault,
      Keeps I (do unless (← get).isDirectory p do throw e : Action Fault Unit) := by
    intro e
    refine .bind_get fun fs hfs => ?_
    split
    · exact hfs
    · exact hfs
  rw [createDirAfter]
  refine .bind_get fun fs hfs => ?_
  split
  · next fs' hcreate => exact hstep fs fs' hfs hcreate
  · next hmissing =>
      refine (habove.bind fun _ => ?_) fs hfs
      refine .bind_get fun fs₁ hfs₁ => ?_
      split
      · next fs₂ hcreate => exact hstep fs₁ fs₂ hfs₁ hcreate
      · next e hfail => exact hlast e fs₁ hfs₁
  · next e _ hfail => exact hlast e fs hfs

/-- What is kept by making each of the directories along a path is kept by making them all. -/
theorem keeps_createDirsAlong {I : FileSystem → Prop} {cs : List Component} (length : Nat)
    (hstep : ∀ k, ∀ fs fs' : FileSystem, I fs →
      fs.createDir (Path.ofComponents (cs.take (k + 1))) = .ok fs' → I fs') :
    Keeps I (createDirsAlong cs length) := by
  induction length with
  | zero => exact .pure _
  | succ length ih => exact keeps_createDirAfter ih (hstep length)

/-- **What each making of one directory keeps is kept by making a directory and those above it.**
Each of them is made under the path itself, or under its first components. -/
theorem keeps_createDirs {I : FileSystem → Prop} {p : Path}
    (hstep : ∀ b, (b = p ∨ ∃ k, b = Path.ofComponents (p.components.take (k + 1))) →
      ∀ fs fs' : FileSystem, I fs → fs.createDir b = .ok fs' → I fs') :
    Keeps I (createDirs p) := by
  rw [createDirs]
  split_ifs with hempty
  · exact .pure _
  · exact keeps_createDirAfter
      (keeps_createDirsAlong _ fun k => hstep _ (.inr ⟨k, rfl⟩)) (hstep p (.inl rfl))

/-- **Making a directory and those above it only adds directories.** -/
theorem grows_createDirs (p : Path) (fs : FileSystem) :
    Grows written fs (outcome (createDirs p) fs).2 := by
  refine keeps_createDirs ?_ fs (Grows.refl written fs)
  intro b _ fs₁ fs₂ hgrown hcreate
  exact hgrown.trans (grows_createDir hcreate)

end FileSystem

end RealmBoot
