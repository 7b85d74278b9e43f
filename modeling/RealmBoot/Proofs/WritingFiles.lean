import RealmBoot.Files.Change
import RealmBoot.Proofs.LongerPaths
import RealmBoot.Proofs.Growth

/-!
# Writing Files

A file is written where its path leads, and nothing else changes. This module fixes what it means
that files were written at some places and nowhere else, and says what each of the operations that
write a file does, so that no later proof looks into them.

## Main results

* `FileSystem.Writes.place_back`: writing files leads no path to something that was there before,
  unless the path led there already.
* `FileSystem.writePlace_eq_ok_iff`: where a file is written.
* `FileSystem.write_spec`, `FileSystem.copy_spec`, `FileSystem.setModified_of_place`: what writing,
  copying and stamping a file does.
-/

namespace RealmBoot

namespace FileSystem

variable {fs fs' fs₁ fs₂ fs₃ : FileSystem} {written : Place → Prop} {last : AtEnd} {links : Nat}
  {here q : Place} {trail todo : List String} {p : Path} {lead : Lead} {bytes bytes' : ByteArray}
  {time time' : Stamp}

/-! ### Files written at some places -/

/-- The second file system is the first one with files written at some places, each of which was
free or held a file. -/
structure Writes (written : Place → Prop) (fs fs' : FileSystem) : Prop where
  /-- Relative paths start where they did. -/
  workDir : fs'.workDir? = fs.workDir?
  /-- What stands at a place stood there before, or is a file that was written. -/
  node : ∀ p, fs'.node? p = fs.node? p ∨
    written p ∧ (∀ n, fs.node? p = some n → n.kind = .file) ∧
      ∃ bytes time, fs'.node? p = some (.file bytes time)

namespace Writes

/-- Nothing has to be written. -/
theorem refl (written : Place → Prop) (fs : FileSystem) : Writes written fs fs :=
  ⟨rfl, fun _ => .inl rfl⟩

/-- What may be written may be written where more may be. -/
theorem mono {written' : Place → Prop} (h : Writes written fs fs')
    (hmono : ∀ p, written p → written' p) : Writes written' fs fs' where
  workDir := h.workDir
  node p := (h.node p).imp_right fun hw => ⟨hmono p hw.1, hw.2⟩

/-- Writing twice is writing. -/
theorem trans (h₁ : Writes written fs₁ fs₂) (h₂ : Writes written fs₂ fs₃) :
    Writes written fs₁ fs₃ where
  workDir := h₂.workDir.trans h₁.workDir
  node p := by
    rcases h₁.node p with hsame | ⟨hw, hbefore, bytes, time, hnew⟩
    · rw [← hsame]
      exact h₂.node p
    · rcases h₂.node p with hsame | ⟨-, -, hnew'⟩
      · exact .inr ⟨hw, hbefore, bytes, time, hsame.trans hnew⟩
      · exact .inr ⟨hw, hbefore, hnew'⟩

/-- What stands where nothing was written stood there before. -/
theorem node_of_not (h : Writes written fs fs') {p : Place} (hp : ¬ written p) :
    fs'.node? p = fs.node? p := (h.node p).resolve_right fun hw => hp hw.1

/-- What is no file stood there before. -/
theorem node_of_kind (h : Writes written fs fs') {p : Place} {n : Node}
    (hn : fs'.node? p = some n) (hkind : n.kind ≠ .file) : fs.node? p = some n := by
  rcases h.node p with hsame | ⟨-, -, bytes, time, hnew⟩
  · rwa [← hsame]
  · rw [hn] at hnew
    cases hnew
    exact absurd rfl hkind

/-- Writing files leaves everything else in place. -/
theorem grows (h : Writes written fs fs') : Grows written fs fs' where
  workDir := h.workDir
  keeps {p n} hn := by
    rcases h.node p with hsame | ⟨hw, hbefore, hnew⟩
    · exact .inl (hsame.trans hn)
    · exact .inr ⟨hw, hbefore n hn, hnew⟩

/-! ### Paths that led somewhere before -/

/-- A walk that comes to something that was there before, or to a link, came there before. -/
theorem stretches_back (h : Writes written fs fs') {result : Stretch}
    (hstretch : fs'.Stretches last trail todo result)
    (hfound : (∃ q, result = .done (.arrived q) ∧ fs.node? q ≠ none) ∨ ∃ base target rest,
      result = .crossing base target rest) :
    fs.Stretches last trail todo result := by
  induction hstretch with
  | nil trail => exact .nil trail
  | dot _ ih => exact .dot (ih hfound)
  | up _ ih => exact .up (ih hfound)
  | into hs hnode _ ih => exact .into hs (h.node_of_kind hnode (by decide)) (ih hfound)
  | crossing hs hnode hfollowed =>
      exact .crossing hs (h.node_of_kind hnode (by simp [Node.kind])) hfollowed
  | @arrived trail s n hs hnode hkind =>
      obtain ⟨q, hq, hthere⟩ := hfound.resolve_right (by simp)
      cases hq
      rcases h.node (s :: trail).reverse with hsame | ⟨-, hbefore, -⟩
      · exact .arrived hs (hsame ▸ hnode) hkind
      · obtain ⟨m, hm⟩ := Option.ne_none_iff_exists'.mp hthere
        exact .arrived hs hm (.inl (hbefore m hm))
  | tooLong | vacant | missing | blocked => simp at hfound

/-- A path that is followed to something that was there before was followed there before. -/
theorem follow_back (h : Writes written fs fs')
    (hlead : fs'.follow last links here todo = .ok (.arrived q)) (hthere : fs.node? q ≠ none) :
    fs.follow last links here todo = .ok (.arrived q) := by
  rw [follow_eq_ok_iff] at hlead ⊢
  generalize hr : Lead.arrived q = lead at hlead
  induction hlead with
  | done hdir hdone =>
      exact .done (h.node_of_kind hdir (by decide))
        (h.stretches_back hdone (.inl ⟨q, hr ▸ rfl, hthere⟩))
  | crossing hdir hcross hslash _ ih =>
      exact .crossing (h.node_of_kind hdir (by decide))
        (h.stretches_back hcross (.inr ⟨_, _, _, rfl⟩)) hslash (ih hr)

/-- **A path that leads to something that was there before led there before.** -/
theorem place_back (h : Writes written fs fs') (hplace : fs'.place p = .ok q)
    (hthere : fs.node? q ≠ none) : fs.place p = .ok q := by
  obtain ⟨hcheck, hadrift, hfollow⟩ := lead_eq_arrived_iff.mp (place_eq_ok_iff.mp hplace)
  refine place_eq_ok_iff.mpr (lead_eq_arrived_iff.mpr ⟨hcheck, ?_, ?_⟩)
  · rwa [isAdrift, ← h.workDir]
  · rw [workLocation, h.workDir, ← workLocation] at hfollow
    exact h.follow_back hfollow hthere

end Writes

/-! ### One file -/

/-- A file was written at a place that was free or held a file, and nothing else was changed. -/
structure WrittenAt (fs : FileSystem) (q : Place) (bytes : ByteArray) (time : Stamp)
    (fs' : FileSystem) : Prop where
  /-- Relative paths start where they did. -/
  workDir : fs'.workDir? = fs.workDir?
  /-- What stood there before was a file, if anything. -/
  before : ∀ n, fs.node? q = some n → n.kind = .file
  /-- The file stands there. -/
  stands : fs'.node? q = some (.file bytes time)
  /-- Nothing else was changed. -/
  elsewhere : ∀ p, p ≠ q → fs'.node? p = fs.node? p

/-- Writing a file writes at its place. -/
theorem WrittenAt.writes (h : fs.WrittenAt q bytes time fs') : Writes (· = q) fs fs' where
  workDir := h.workDir
  node p := by
    by_cases hp : p = q
    · subst hp
      exact .inr ⟨rfl, h.before, bytes, time, h.stands⟩
    · exact .inl (h.elsewhere p hp)

/-- A file that is written twice is there as it was written last. -/
theorem WrittenAt.trans (h₁ : fs₁.WrittenAt q bytes time fs₂)
    (h₂ : fs₂.WrittenAt q bytes' time' fs₃) : fs₁.WrittenAt q bytes' time' fs₃ where
  workDir := h₂.workDir.trans h₁.workDir
  before := h₁.before
  stands := h₂.stands
  elsewhere p hp := (h₂.elsewhere p hp).trans (h₁.elsewhere p hp)

/-- A place at which a file can be put: a directory is above it, and it is free or holds a file. -/
structure Writable (fs : FileSystem) (q : Place) : Prop where
  ne_nil : q ≠ []
  directory : fs.node? q.dropLast = some .directory
  before : ∀ n, fs.node? q = some n → n.kind = .file

/-- Below a place that is free or holds a file there is nothing. -/
theorem Writable.below (h : fs.Writable q) {rest : Place} (hrest : rest ≠ []) :
    fs.node? (q ++ rest) = none := by
  cases hn : fs.node? (q ++ rest) with
  | none => rfl
  | some n => cases h.before _ (node?_parent hrest hn)

/-- A file that is put there changes nothing else. -/
theorem Writable.put (h : fs.Writable q) :
    fs.WrittenAt q bytes time (fs.put q (.file bytes time)) where
  workDir := rfl
  before := h.before
  stands := by
    rw [node?_put h.ne_nil h.directory]
    simp
  elsewhere p hp := by
    rw [node?_put h.ne_nil h.directory]
    split_ifs with hbelow
    · obtain ⟨rest, rfl⟩ := hbelow
      have hrest : rest ≠ [] := by
        rintro rfl
        exact hp (List.append_nil q)
      exact (h.below hrest).symm
    · rfl

/-- The clock of the writes goes on, which no place shows. -/
theorem Writable.putFile (h : fs.Writable q) :
    fs.WrittenAt q bytes (.written fs.ticks) (fs.putFile q bytes) where
  workDir := rfl
  before := h.before
  stands := h.put.stands
  elsewhere := h.put.elsewhere

/-! ### Where a file is written -/

/-- Walks that follow a link at the end go the same way, whatever they are for. -/
theorem Stretches.of_filled {result : Stretch} (h : fs.Stretches .filled trail todo result) :
    fs.Stretches .followed trail todo result := by
  induction h with
  | nil trail => exact .nil trail
  | dot _ ih => exact .dot ih
  | up _ ih => exact .up ih
  | tooLong hdot hup hlong => exact .tooLong hdot hup hlong
  | into hs hnode _ ih => exact .into hs hnode ih
  | vacant hs hfree => exact .vacant hs hfree
  | missing hs hfree hmore => exact .missing hs hfree hmore
  | blocked hs hnode hmore => exact .blocked hs hnode hmore
  | crossing hs hnode _ => exact .crossing hs hnode fun _ => by decide
  | arrived hs hnode hkind =>
      refine .arrived hs hnode (.inl (hkind.resolve_right ?_))
      rintro ⟨-, hlast⟩
      cases hlast

/-- A path along which a file can be written leads to where it is written. -/
theorem follow_of_filled (h : fs.follow .filled links here todo = .ok lead) :
    fs.follow .followed links here todo = .ok lead := by
  rw [follow_eq_ok_iff] at h ⊢
  induction h with
  | done hdir hdone => exact .done hdir hdone.of_filled
  | crossing hdir hcross _ _ ih => exact .crossing hdir hcross.of_filled (by simp) ih

/-- **A file is written where its path leads**, which is a free name or a file. -/
theorem writePlace_eq_ok_iff :
    fs.writePlace p = .ok q ↔
      checkPath p = .ok () ∧ fs.isAdrift p = false ∧ p.endsInSlash = false ∧
        ∃ lead, fs.follow .filled linkLimit (start fs.workLocation.names p) p.segments = .ok lead ∧
          (lead = .vacant q ∨ lead = .arrived q ∧ fs.node? q ≠ some .directory) := by
  have hpursue : p.endsInSlash = false → fs.isAdrift p = false → ∀ lead,
      fs.lead .filled p = .ok lead ↔ checkPath p = .ok () ∧
        fs.follow .filled linkLimit (start fs.workLocation.names p) p.segments = .ok lead := by
    intro hslash hadrift lead
    rw [FileSystem.lead, steps, hslash, pursue, hadrift]
    constructor
    · intro h
      obtain ⟨⟨⟩, hcheck, hfollow⟩ := except_bind_eq_ok_iff.mp h
      exact ⟨hcheck, hfollow⟩
    · rintro ⟨hcheck, hfollow⟩
      exact except_bind_eq_ok_iff.mpr ⟨⟨⟩, hcheck, hfollow⟩
  constructor
  · intro h
    rw [writePlace] at h
    obtain ⟨⟨⟩, hcheck, h⟩ := except_bind_eq_ok_iff.mp h
    split_ifs at h with hslash
    · obtain ⟨lead, -, h⟩ := except_bind_eq_ok_iff.mp h
      cases h
    obtain ⟨lead, hlead, h⟩ := except_bind_eq_ok_iff.mp h
    have hslash' : p.endsInSlash = false := by simpa using hslash
    have hadrift : fs.isAdrift p = false := by
      rw [FileSystem.lead] at hlead
      obtain ⟨⟨⟩, -, hlead⟩ := except_bind_eq_ok_iff.mp hlead
      rw [pursue] at hlead
      split_ifs at hlead with hadrift
      · simpa using hadrift
      · cases hlead
        cases h
    refine ⟨hcheck, hadrift, hslash', lead, ((hpursue hslash' hadrift lead).mp hlead).2, ?_⟩
    cases lead with
    | adrift => cases h
    | vacant r =>
        cases h
        exact .inl rfl
    | arrived r =>
        dsimp only at h
        split_ifs at h with hdir
        cases h
        exact .inr ⟨rfl, fun hq => hdir (isDirectoryAt_iff.mpr hq)⟩
  · rintro ⟨hcheck, hadrift, hslash, lead, hfollow, hlead⟩
    have hlead' := (hpursue hslash hadrift lead).mpr ⟨hcheck, hfollow⟩
    rw [writePlace]
    refine except_bind_eq_ok_iff.mpr ⟨⟨⟩, hcheck, ?_⟩
    rw [if_neg (by simp [hslash])]
    refine except_bind_eq_ok_iff.mpr ⟨lead, hlead', ?_⟩
    rcases hlead with rfl | ⟨rfl, hdir⟩
    · rfl
    · dsimp only
      rw [if_neg fun h => hdir (isDirectoryAt_iff.mp h)]
      rfl

/-- Where a file is written it can be put. -/
theorem writable_of_writePlace (h : fs.writePlace p = .ok q) : fs.Writable q := by
  obtain ⟨-, -, -, lead, hfollow, rfl | ⟨rfl, hdir⟩⟩ := writePlace_eq_ok_iff.mp h
  · obtain ⟨hq, hfree, habove⟩ := follow_vacant hfollow
    refine ⟨hq, habove, fun n hn => ?_⟩
    rw [hfree] at hn
    cases hn
  · obtain ⟨n, hn, hlink⟩ := follow_arrived hfollow
    refine ⟨?_, node?_dropLast hn, fun m hm => ?_⟩
    · rintro rfl
      exact hdir rfl
    · rw [hn] at hm
      cases hm
      cases n with
      | file => rfl
      | link => cases hlink rfl
      | directory => exact absurd hn hdir

/-- **Where a file was written, there its path leads,** and there it would be written again. -/
theorem Writes.of_writePlace (h : Writes written fs fs') (hplace : fs.writePlace p = .ok q)
    (hq : fs'.node? q = some (.file bytes time)) :
    fs'.place p = .ok q ∧ fs'.writePlace p = .ok q := by
  obtain ⟨hcheck, hadrift, hslash, lead, hfollow, hlead⟩ := writePlace_eq_ok_iff.mp hplace
  have harrived : fs'.follow .filled linkLimit (start fs'.workLocation.names p) p.segments =
      .ok (.arrived q) := by
    rw [workLocation, h.workDir, ← workLocation]
    rcases hlead with rfl | ⟨rfl, -⟩
    · exact h.grows.follow_vacant hq (by simp [Node.kind]) hfollow
    · exact h.grows.follow hfollow
  have hadrift' : fs'.isAdrift p = false := by rwa [isAdrift, h.workDir]
  have hsteps : steps p = p.segments := by
    rw [steps, hslash]
    rfl
  refine ⟨?_, writePlace_eq_ok_iff.mpr ⟨hcheck, hadrift', hslash, _, harrived, .inr ⟨rfl, ?_⟩⟩⟩
  · refine place_eq_ok_iff.mpr (lead_eq_arrived_iff.mpr ⟨hcheck, hadrift', ?_⟩)
    rw [hsteps]
    exact follow_of_filled harrived
  · rw [hq]
    simp

/-! ### The operations -/

/-- Writing a file writes it where its path leads. -/
theorem write_spec (h : fs.write p bytes = .ok fs') :
    ∃ q, fs.writePlace p = .ok q ∧ fs.WrittenAt q bytes (.written fs.ticks) fs' := by
  obtain ⟨q, hplace, hput⟩ := except_bind_eq_ok_iff.mp h
  cases hput
  exact ⟨q, hplace, (writable_of_writePlace hplace).putFile⟩

/-- What a path leads to is what it denotes. -/
theorem stat_eq_file_iff :
    fs.stat p = .ok (.file bytes time) ↔
      ∃ q, fs.place p = .ok q ∧ fs.node? q = some (.file bytes time) := by
  rw [stat]
  constructor
  · intro h
    obtain ⟨lead, hlead, hat⟩ := except_bind_eq_ok_iff.mp h
    cases lead with
    | vacant q => cases hat
    | adrift => cases hat
    | arrived q =>
        refine ⟨q, place_eq_ok_iff.mpr hlead, ?_⟩
        rw [nodeAt] at hat
        split at hat
        · next n hn =>
            cases hat
            exact hn
        · cases hat
  · rintro ⟨q, hplace, hq⟩
    refine except_bind_eq_ok_iff.mpr ⟨.arrived q, place_eq_ok_iff.mp hplace, ?_⟩
    rw [nodeAt, hq]

/-- So a path denotes a file if it leads to one. -/
theorem isFile_iff :
    fs.isFile p = true ↔
      ∃ q bytes time, fs.place p = .ok q ∧ fs.node? q = some (.file bytes time) := by
  have hfile : fs.isFile p = true ↔ ∃ bytes time, fs.stat p = .ok (.file bytes time) := by
    rw [isFile]
    cases fs.stat p with
    | error fault => simp [Except.toOption]
    | ok n => cases n <;> simp [Except.toOption, Node.kind]
  rw [hfile]
  constructor
  · rintro ⟨bytes, time, hstat⟩
    obtain ⟨q, hq⟩ := stat_eq_file_iff.mp hstat
    exact ⟨q, bytes, time, hq⟩
  · rintro ⟨q, bytes, time, hq⟩
    exact ⟨bytes, time, stat_eq_file_iff.mpr ⟨q, hq⟩⟩

/-- What is read of a path are the bytes of the file it denotes. -/
theorem read_eq_ok_iff : fs.read p = .ok bytes ↔ ∃ time, fs.stat p = .ok (.file bytes time) := by
  rw [read]
  cases fs.stat p with
  | error fault => simp [bind, Except.bind]
  | ok n => cases n <;> simp [bind, Except.bind, pure, Except.pure]

/-- A file that was not written is denoted as before. -/
theorem Writes.stat (h : Writes written fs fs') (hstat : fs.stat p = .ok (.file bytes time))
    (hspared : ∀ q, fs.place p = .ok q → ¬ written q) : fs'.stat p = .ok (.file bytes time) := by
  obtain ⟨q, hplace, hq⟩ := stat_eq_file_iff.mp hstat
  refine stat_eq_file_iff.mpr ⟨q, ?_, (h.node_of_not (hspared q hplace)).trans hq⟩
  exact place_eq_ok_iff.mpr (h.grows.lead (place_eq_ok_iff.mp hplace))

/-- **Copying a file** writes its bytes where the other path leads, unless that is the same file. -/
theorem copy_spec {source : Path} (h : fs.copy source p = .ok fs') :
    ∃ held time q, fs.stat source = .ok (.file held time) ∧ fs.writePlace p = .ok q ∧
      ∃ bytes tick, fs.WrittenAt q bytes (.written tick) fs' ∧
        (fs.place source ≠ .ok q → bytes = held) := by
  rw [copy] at h
  obtain ⟨lead, hlead, h⟩ := except_bind_eq_ok_iff.mp h
  cases lead with
  | vacant r => cases h
  | adrift => cases h
  | arrived r =>
      dsimp only at h
      split_ifs at h with hkind
      · cases h
      obtain ⟨emptied, hemptied, h⟩ := except_bind_eq_ok_iff.mp h
      have hsource := place_eq_ok_iff.mpr hlead
      obtain ⟨held, time, hr⟩ : ∃ held time, fs.node? r = some (.file held time) := by
        cases hn : fs.node? r with
        | none => simp [hn] at hkind
        | some n => cases n <;> simp [hn, Node.kind] at hkind ⊢
      obtain ⟨q, hplace, hempty⟩ := write_spec hemptied
      refine ⟨held, time, q, stat_eq_file_iff.mpr ⟨r, hsource, hr⟩, hplace, ?_⟩
      split at h
      · next bytes time' hread =>
          obtain ⟨q', hplace', hwritten⟩ := write_spec h
          rw [(hempty.writes.of_writePlace hplace hempty.stands).2] at hplace'
          cases hplace'
          refine ⟨bytes, _, hempty.trans hwritten, fun hother => ?_⟩
          have hqr : r ≠ q := by
            rintro rfl
            exact hother hsource
          rw [hempty.elsewhere r hqr, hr] at hread
          cases hread
          rfl
      · cases h

/-- **Stamping a file** changes its time only. -/
theorem setModified_of_place (hplace : fs.place p = .ok q)
    (hq : fs.node? q = some (.file bytes time)) (hwritable : fs.Writable q) (time' : Stamp) :
    ∃ fs', fs.setModified p time' = .ok fs' ∧ fs.WrittenAt q bytes time' fs' := by
  refine ⟨fs.put q (.file bytes time'), ?_, hwritable.put⟩
  refine except_bind_eq_ok_iff.mpr ⟨q, hplace, ?_⟩
  rw [hq]
  rfl

end FileSystem

end RealmBoot
