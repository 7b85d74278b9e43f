import RealmBoot.Extension.Installation
import RealmBoot.Proofs.ReceivingDirectory

/-!
# Placing Archives

An archive is placed by copying it and giving the copy its time, unless what is there has that time
already. This module says what becomes of one archive, and of several placed one after another under
different names of one directory: none of them disturbs another, and each is found again as it was
placed.

## Main results

* `Installation.install_cases`: an archive that cannot be placed leaves the files as they are.
* `Installation.Places.writes`: placing archives changes nothing but the files they become.
* `Installation.Places.recorded`: what is noted down of an archive holds at the end.
-/

namespace RealmBoot

open FileSystem

/-- An archive that is to be placed. -/
structure Placement where
  /-- Its short name. -/
  name : String
  /-- Where it comes from. -/
  source : Path
  /-- Where it is placed. -/
  target : Path
deriving DecidableEq

/-- What was to be placed. -/
def Installed.placement (i : Installed) : Placement := ⟨i.name, i.source, i.target⟩

namespace Installation

/-- What became of an archive that was placed. -/
inductive Placed (fs : FileSystem) : Installed → FileSystem → Prop
  /-- What was there had its time already, and stays. -/
  | upToDate {name : String} {source target : Path} {bytes held : ByteArray} {time : Stamp}
      (archive : fs.stat source = .ok (.file bytes time))
      (there : fs.stat target = .ok (.file held time)) : Placed fs ⟨name, source, target, true⟩ fs
  /-- It was written where the path of the target leads, with its time. -/
  | written {name : String} {source target : Path} {bytes : ByteArray} {time : Stamp} {q : Place}
      {fs' : FileSystem} (archive : fs.stat source = .ok (.file bytes time))
      (place : fs.writePlace target = .ok q) (written : fs.WrittenAt q bytes time fs') :
      Placed fs ⟨name, source, target, false⟩ fs'

variable {base fs fs' fs₁ fs₂ : FileSystem} {name s : String} {source target p : Path}
  {i : Installed} {q : Place} {bytes held : ByteArray} {time : Stamp}

/-! ### One archive -/

/-- The time of a file is asked for under its path. -/
theorem modified_eq_some_iff :
    fs.modified p = .ok (some time) ↔ ∃ bytes, fs.stat p = .ok (.file bytes time) := by
  rw [modified]
  cases fs.stat p with
  | error e => simp [bind, Except.bind]
  | ok n => cases n <;> simp [bind, Except.bind, pure, Except.pure]

/-- Two paths are known to have the same time exactly if both denote files, and those have it. -/
theorem sameTime_iff :
    sameTime fs source target = true ↔ ∃ bytes held time, fs.stat source = .ok (.file bytes time) ∧
      fs.stat target = .ok (.file held time) := by
  have hfile : ∀ p, (∃ t, fs.modified p = .ok (some t)) ∨ ∀ t, fs.modified p ≠ .ok (some t) :=
    fun p => (Classical.em _).imp_right fun h t ht => h ⟨t, ht⟩
  rw [sameTime]
  constructor
  · intro h
    split at h
    · next t t' hsource htarget =>
        obtain rfl := of_decide_eq_true h
        obtain ⟨bytes, hbytes⟩ := modified_eq_some_iff.mp hsource
        obtain ⟨held, hheld⟩ := modified_eq_some_iff.mp htarget
        exact ⟨bytes, held, t, hbytes, hheld⟩
    · cases h
  · rintro ⟨bytes, held, time, hbytes, hheld⟩
    rw [modified_eq_some_iff.mpr ⟨bytes, hbytes⟩, modified_eq_some_iff.mpr ⟨held, hheld⟩]
    simp

/-- A copy that is stamped has the bytes and the time of the archive; one that fails changes
nothing. The archive is not the file it is copied to, as that would have its time. -/
theorem copyStamped_cases (hother : ¬ sameTime fs source target = true) :
    (∃ fault, outcome (copyStamped source target) fs = (.error fault, fs)) ∨
      ∃ bytes time q fs', fs.stat source = .ok (.file bytes time) ∧
        fs.writePlace target = .ok q ∧ fs.WrittenAt q bytes time fs' ∧
        outcome (copyStamped source target) fs = (.ok (), fs') := by
  have hlook := outcome_look (·.modified source) fs
  cases hstamp : fs.modified source with
  | error fault =>
      rw [hstamp] at hlook
      exact .inl ⟨fault, by rw [copyStamped, outcome_bind_of_error hlook]⟩
  | ok stamp? =>
      rw [hstamp] at hlook
      rw [copyStamped, outcome_bind_of_ok hlook]
      cases hcopy : fs.copy source target with
      | error fault =>
          exact .inl ⟨fault, by rw [outcome_bind_of_error (outcome_change_of_error hcopy)]⟩
      | ok copied =>
          rw [outcome_bind_of_ok (outcome_change_of_ok hcopy)]
          obtain ⟨held, time, q, harchive, hplace, bytes, tick, hwritten, hbytes⟩ := copy_spec hcopy
          have happart : fs.place source ≠ .ok q := by
            intro hsource
            obtain ⟨q', hq', hnode⟩ := stat_eq_file_iff.mp harchive
            rw [hsource] at hq'
            cases hq'
            have hthere := ((Writes.refl (fun _ => False) fs).of_writePlace hplace hnode).1
            exact hother (sameTime_iff.mpr
              ⟨held, held, time, harchive, stat_eq_file_iff.mpr ⟨q, hthere, hnode⟩⟩)
          obtain rfl := hbytes happart
          rw [modified_eq_some_iff.mpr ⟨bytes, harchive⟩] at hstamp
          cases hstamp
          have hcopied := hwritten.writes.of_writePlace hplace hwritten.stands
          obtain ⟨stamped, hset, hstamped⟩ := setModified_of_place hcopied.1 hwritten.stands
            (writable_of_writePlace hcopied.2) time
          refine .inr ⟨bytes, time, q, stamped, harchive, hplace, hwritten.trans hstamped, ?_⟩
          exact outcome_change_of_ok hset

/-- **Placing an archive** either notes down what became of it, or fails and changes nothing. -/
theorem install_cases (name : String) (source target : Path) (fs : FileSystem) :
    (∃ fault, outcome (install name source target) fs = (.error (.copy source target fault), fs)) ∨
      ∃ upToDate fs', outcome (install name source target) fs =
        (.ok ⟨name, source, target, upToDate⟩, fs') ∧
        Placed fs ⟨name, source, target, upToDate⟩ fs' := by
  rw [install, outcome_mapFailure]
  have hlook := outcome_look (·.modified source) fs
  cases hstamp : fs.modified source with
  | error fault =>
      rw [hstamp] at hlook
      exact .inl ⟨fault, by rw [outcome_bind_of_error hlook]; rfl⟩
  | ok stamp? =>
      rw [hstamp] at hlook
      rw [outcome_bind_of_ok hlook, outcome_bind_of_ok (outcome_get fs)]
      by_cases hsame : sameTime fs source target = true
      · rw [if_pos hsame]
        obtain ⟨bytes, held, time, harchive, hthere⟩ := sameTime_iff.mp hsame
        exact .inr ⟨true, fs, rfl, .upToDate harchive hthere⟩
      · rw [if_neg hsame]
        rcases copyStamped_cases hsame with
          ⟨fault, hcopy⟩ | ⟨bytes, time, q, fs', harchive, hplace, hwritten, hcopy⟩
        · exact .inl ⟨fault, by rw [outcome_bind_of_error hcopy]; rfl⟩
        · refine .inr ⟨false, fs', ?_, .written harchive hplace hwritten⟩
          rw [outcome_bind_of_ok hcopy]
          rfl

/-- What is noted down of an archive that was placed became of it. -/
theorem placed_of_install (h : outcome (install name source target) fs = (.ok i, fs')) :
    (i.name = name ∧ i.source = source ∧ i.target = target) ∧ Placed fs i fs' := by
  rcases install_cases name source target fs with ⟨fault, hfail⟩ | ⟨upToDate, fs₁, hok, hplaced⟩
  · rw [hfail] at h
    cases h
  · rw [hok] at h
    cases h
    exact ⟨⟨rfl, rfl, rfl⟩, hplaced⟩

/-- An archive whose target has its time is not copied again. -/
theorem install_of_sameTime (h : sameTime fs source target = true) :
    outcome (install name source target) fs = (.ok ⟨name, source, target, true⟩, fs) := by
  obtain ⟨bytes, held, time, harchive, hthere⟩ := sameTime_iff.mp h
  have hlook := outcome_look (·.modified source) fs
  rw [modified_eq_some_iff.mpr ⟨bytes, harchive⟩] at hlook
  rw [install, outcome_mapFailure, outcome_bind_of_ok hlook, outcome_bind_of_ok (outcome_get fs),
    if_pos h]
  rfl

/-! ### Names of a directory -/

/-- An archive goes into a directory under a name that is no link there. -/
structure GoesUnder (base : FileSystem) (target : Path) (i : Installed) (s : String) : Prop where
  /-- It is a name. -/
  isName : Location.IsName s
  /-- It follows the path of the directory. -/
  path : i.target = target.child s
  /-- No link stands there. -/
  noLink : ∀ q, base.Receives target q → ∀ linked, base.node? (q ++ [s]) ≠ some (.link linked)

/-- An archive goes to a place: under a name of the directory that names behind the path are looked
up in. -/
def GoesTo (base : FileSystem) (target : Path) (i : Installed) (p : Place) : Prop :=
  ∃ q s, base.Receives target q ∧ Location.IsName s ∧ i.target = target.child s ∧ p = q ++ [s]

/-- Archives with different paths go to different places. -/
theorem GoesTo.target_eq {j : Installed} {p : Place} (hi : GoesTo base target i p)
    (hj : GoesTo base target j p) : i.target = j.target := by
  obtain ⟨q, s, hq, -, hs, rfl⟩ := hi
  obtain ⟨r, t, hr, -, ht, hplace⟩ := hj
  obtain rfl := hq.unique hr
  rw [List.append_cancel_left_eq, List.singleton_inj] at hplace
  rw [hs, ht, hplace]

/-- A directory that receives files after some were written did so before. -/
theorem receives_of_writes {written : Place → Prop} (hbase : Writes written base fs)
    (h : fs.Receives target q) : base.Receives target q := by
  have hdir : base.node? q = some .directory := hbase.node_of_kind h.directory (by decide)
  refine ⟨hbase.place_back h.place ?_, hdir⟩
  rw [hdir]
  simp

/-- **What became of an archive under its name.** Whatever was written before, it changes nothing
but the place of its name, at which a file stands with the time of the archive. -/
theorem Placed.under {written : Place → Prop} (hplaced : Placed fs i fs')
    (hmade : target.text = "" ∨ base.isDirectory target = true) (hbase : Writes written base fs)
    (hunder : GoesUnder base target i s) :
    ∃ q bytes held time, base.Receives target q ∧ fs.stat i.source = .ok (.file bytes time) ∧
      Writes (· = q ++ [s]) fs fs' ∧ fs'.place i.target = .ok (q ++ [s]) ∧
      fs'.node? (q ++ [s]) = some (.file held time) ∧
      if i.upToDate then fs' = fs else held = bytes := by
  have hmade' : target.text = "" ∨ fs.isDirectory target = true :=
    hmade.imp_right hbase.grows.isDirectory
  have hnoLink : ∀ q, base.Receives target q →
      ∀ linked, fs.node? (q ++ [s]) ≠ some (.link linked) := by
    intro q hq linked hlink
    exact hunder.noLink q hq linked (hbase.node_of_kind hlink (by simp [Node.kind]))
  cases hplaced with
  | @upToDate name source target' bytes held time harchive hthere =>
      obtain rfl : target' = target.child s := hunder.path
      obtain ⟨r, hplace, hr⟩ := stat_eq_file_iff.mp hthere
      obtain ⟨-, hadrift, hfollow⟩ := lead_eq_arrived_iff.mp (place_eq_ok_iff.mp hplace)
      obtain ⟨q, hq⟩ := exists_receives hmade' hunder.isName hadrift hfollow
      have hbaseq := receives_of_writes hbase hq
      obtain rfl := hq.place_child hunder.isName (hnoLink q hbaseq) hplace
      exact ⟨q, bytes, held, time, hbaseq, harchive, .refl _ fs, hplace, hr, rfl⟩
  | @written name source target' bytes time r _ harchive hplace hwritten =>
      obtain rfl : target' = target.child s := hunder.path
      obtain ⟨-, hadrift, hslash, lead, hfollow, -⟩ := writePlace_eq_ok_iff.mp hplace
      have hsteps : FileSystem.steps (target.child s) = (target.child s).segments := by
        rw [FileSystem.steps, hslash]
        rfl
      rw [← hsteps] at hfollow
      obtain ⟨q, hq⟩ := exists_receives hmade' hunder.isName hadrift hfollow
      have hbaseq := receives_of_writes hbase hq
      obtain rfl := hq.writePlace_child hunder.isName (hnoLink q hbaseq) hplace
      have hthere := (hwritten.writes.of_writePlace hplace hwritten.stands).1
      exact ⟨q, bytes, bytes, time, hbaseq, harchive, hwritten.writes, hthere, hwritten.stands, rfl⟩

/-- Archives are to be placed under different names of a directory. -/
structure Separate (base : FileSystem) (target : Path) (records : List Installed) : Prop where
  /-- The directory is there. -/
  directory : target.text = "" ∨ base.isDirectory target = true
  /-- Each goes under a name that is no link there. -/
  under : ∀ i ∈ records, ∃ s, GoesUnder base target i s
  /-- No two go to the same path. -/
  distinct : (records.map (·.target)).Nodup

/-! ### Several archives -/

/-- Archives are placed one after another, each noted down with what became of it. -/
inductive Places : FileSystem → List Installed → FileSystem → Prop
  /-- There are none. -/
  | nil (fs : FileSystem) : Places fs [] fs
  /-- One is placed, and then the others. -/
  | cons {fs fs₁ fs₂ : FileSystem} {i : Installed} {rest : List Installed}
      (first : outcome (install i.name i.source i.target) fs = (.ok i, fs₁))
      (others : Places fs₁ rest fs₂) : Places fs (i :: rest) fs₂

namespace Places

variable {records before after : List Installed}

/-- Archives are placed in two parts, the second of which starts where the first has ended. -/
theorem append_iff :
    Places fs (before ++ after) fs' ↔ ∃ turn, Places fs before turn ∧ Places turn after fs' := by
  constructor
  · intro h
    induction before generalizing fs with
    | nil => exact ⟨fs, .nil fs, h⟩
    | cons i before ih =>
        cases h with
        | cons first others =>
            obtain ⟨turn, hbefore, hafter⟩ := ih others
            exact ⟨turn, .cons first hbefore, hafter⟩
  · rintro ⟨turn, hbefore, hafter⟩
    induction hbefore with
    | nil => exact hafter
    | cons first _ ih => exact .cons first (ih hafter)

/-- One more archive may be placed at the end. -/
theorem concat (h : Places fs records fs₁)
    (hlast : outcome (install i.name i.source i.target) fs₁ = (.ok i, fs₂)) :
    Places fs (records ++ [i]) fs₂ := append_iff.mpr ⟨fs₁, h, .cons hlast (.nil _)⟩

/-- **Placing archives changes nothing but the files they become.** -/
theorem writes (h : Places fs records fs')
    (hmade : target.text = "" ∨ base.isDirectory target = true)
    (hbase : Writes (fun _ => True) base fs)
    (hunder : ∀ i ∈ records, ∃ s, GoesUnder base target i s) :
    Writes (fun p => ∃ i ∈ records, GoesTo base target i p) fs fs' := by
  induction h with
  | nil fs => exact .refl _ fs
  | @cons fs fs₁ fs₂ i rest first _ ih =>
      obtain ⟨hfirst, hrest⟩ := List.forall_mem_cons.mp hunder
      obtain ⟨s, hs⟩ := hfirst
      obtain ⟨q, -, -, -, hq, -, hwrites, -⟩ := (placed_of_install first).2.under hmade hbase hs
      have hgoes : GoesTo base target i (q ++ [s]) := ⟨q, s, hq, hs.isName, hs.path, rfl⟩
      have hnext := hbase.trans (hwrites.mono fun _ _ => trivial)
      refine (hwrites.mono fun p hp => ?_).trans ((ih hnext hrest).mono fun p hp => ?_)
      · exact ⟨i, List.mem_cons_self, hp ▸ hgoes⟩
      · obtain ⟨j, hj, hp⟩ := hp
        exact ⟨j, List.mem_cons_of_mem _ hj, hp⟩

/-- What is placed is determined by what is to be placed. -/
theorem unique {records' : List Installed} (h : Places fs records fs₁) (h' : Places fs records' fs₂)
    (hsame : records.map (·.placement) = records'.map (·.placement)) :
    records = records' ∧ fs₁ = fs₂ := by
  induction h generalizing records' with
  | nil fs =>
      obtain rfl := List.map_eq_nil_iff.mp hsame.symm
      cases h'
      exact ⟨rfl, rfl⟩
  | cons first _ ih =>
      cases h' with
      | nil => cases hsame
      | cons first' others' =>
          rw [List.map_cons, List.map_cons, List.cons.injEq] at hsame
          obtain ⟨hhead, htail⟩ := hsame
          injection hhead with hname hsource htarget
          rw [← hname, ← hsource, ← htarget, first] at first'
          cases first'
          obtain ⟨rfl, rfl⟩ := ih others' htail
          exact ⟨rfl, rfl⟩

/-- **A file is the same at the end** as between two parts of the placing, if it was no file of the
directory at first: one that is written later was there from the start. -/
theorem stat_kept (hbefore : Places base before fs) (hafter : Places fs after fs')
    (hseparate : Separate base target (before ++ after))
    (hstat : fs.stat p = .ok (.file bytes time))
    (hapart : base.Apart target p) :
    fs'.stat p = .ok (.file bytes time) := by
  have hdistinct := hseparate.distinct
  rw [List.map_append, List.nodup_append] at hdistinct
  obtain ⟨-, -, hdisjoint⟩ := hdistinct
  have hearlier := hbefore.writes hseparate.directory (.refl _ base) fun j hj =>
    hseparate.under j (List.mem_append_left _ hj)
  have hlater := hafter.writes hseparate.directory (hearlier.mono fun _ _ => trivial) fun j hj =>
    hseparate.under j (List.mem_append_right _ hj)
  refine hlater.stat hstat fun r hr => ?_
  rintro ⟨j, hj, hgoes⟩
  obtain ⟨r', hr', hnode⟩ := stat_eq_file_iff.mp hstat
  rw [hr] at hr'
  cases hr'
  have hspared : ¬ ∃ k ∈ before, GoesTo base target k r := by
    rintro ⟨k, hk, hkgoes⟩
    exact hdisjoint _ (List.mem_map_of_mem hk) _ (List.mem_map_of_mem hj) (hkgoes.target_eq hgoes)
  have hthere := (hearlier.node_of_not hspared).symm.trans hnode
  obtain ⟨q, s, hq, -, -, rfl⟩ := hgoes
  refine hapart q s hq (hearlier.place_back hr ?_)
  rw [hthere]
  simp

/-- **What is noted down of an archive holds at the end.** Archives that are placed under different
names of a directory do not disturb one another: at the end the file of each has the time the
archive had at its turn, and its bytes, unless it was up to date and has stayed as it was. An
archive that is no file of the directory is itself as it was. -/
theorem recorded (h : Places base (before ++ i :: after) fs')
    (hseparate : Separate base target (before ++ i :: after)) :
    ∃ turn bytes held time, Places base before turn ∧ turn.stat i.source = .ok (.file bytes time) ∧
      fs'.stat i.target = .ok (.file held time) ∧
      (if i.upToDate then base.stat i.target = .ok (.file held time) else held = bytes) ∧
      (base.Apart target i.source → fs'.stat i.source = .ok (.file bytes time)) := by
  obtain ⟨turn, hbefore, hrest⟩ := append_iff.mp h
  obtain ⟨s, hs⟩ := hseparate.under i (by simp)
  have hdistinct := hseparate.distinct
  rw [List.map_append, List.map_cons, List.nodup_append] at hdistinct
  have hwrites := hbefore.writes hseparate.directory (.refl _ base) fun j hj =>
    hseparate.under j (by simp [hj])
  cases hrest with
  | @cons _ turn' _ _ _ hinstall hafter =>
  obtain ⟨q, bytes, held, time, hq, harchive, hplaced, hplace, hfile, hbecame⟩ :=
    (placed_of_install hinstall).2.under hseparate.directory hwrites hs
  have hgoes : GoesTo base target i (q ++ [s]) := ⟨q, s, hq, hs.isName, hs.path, rfl⟩
  have hrest := hafter.writes hseparate.directory
    ((hwrites.mono fun _ _ => trivial).trans (hplaced.mono fun _ _ => trivial))
    fun j hj => hseparate.under j (by simp [hj])
  have hkept := stat_kept hbefore (.cons hinstall hafter) hseparate harchive
  refine ⟨turn, bytes, held, time, hbefore, harchive, ?_, ?_, hkept⟩
  · refine hrest.stat (stat_eq_file_iff.mpr ⟨_, hplace, hfile⟩) fun r hr => ?_
    rw [hplace] at hr
    cases hr
    rintro ⟨j, hj, hjgoes⟩
    obtain ⟨hlater, -⟩ := List.nodup_cons.mp hdistinct.2.1
    exact hlater (hgoes.target_eq hjgoes ▸ List.mem_map_of_mem hj)
  · split_ifs at hbecame ⊢ with hup
    · subst hbecame
      have hspared : ¬ ∃ j ∈ before, GoesTo base target j (q ++ [s]) := by
        rintro ⟨j, hj, hjgoes⟩
        exact hdistinct.2.2 _ (List.mem_map_of_mem hj) _ List.mem_cons_self (hjgoes.target_eq hgoes)
      have hnode := (hwrites.node_of_not hspared).symm.trans hfile
      refine stat_eq_file_iff.mpr ⟨_, hwrites.place_back hplace ?_, hnode⟩
      rw [hnode]
      simp
    · exact hbecame

end Places

end Installation

end RealmBoot
