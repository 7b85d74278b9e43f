import RealmBoot.Proofs.CopyingHooks
import RealmBoot.Proofs.HomeCourse
import RealmBoot.Proofs.LaunchCourse
import RealmBoot.Proofs.NormalForm
import RealmBoot.Proofs.ScanCourse

/-!
# Installed Hooks

A directory of hooks is installed in a fresh home if there is something in it. Only two things can
keep hooks from being copied whose links lead somewhere and not back: a home that is a working
directory which is gone, and a path of more bytes than the system takes. Whatever comes of it, what
does not lie in the home stays as it was.

## Main results

* `RunHome.installHooks_copies`: hooks are installed in full.
* `RunHome.hooks_installed`: when hooks are refused, when they are copied, and what is left alone.
* `RunHome.not_hooks_installed`: hooks that are not installed for one of these two reasons, and
  hooks that are refused by a path which is not absolute.
-/

namespace RealmBoot

open FileSystem

namespace RunHome

variable {base cur : FileSystem} {home : RunHome} {hooks : Path} {h q : Place}
  {m : Walk.Sighting} {n : Node} {w : World}

/-! ### How hooks are refused -/

/-- The path by which messages name another one: its absolute form, or the path itself if it has
none. -/
structure ShownAs (fs : FileSystem) (p shown : Path) : Prop where
  /-- The absolute form. -/
  absolute : p.text ≠ "" → fs.isAdrift p = false →
    fs.absolute p = .ok shown ∧ shown.isAbsolute = true
  /-- The empty path has none, and neither has one that starts from a directory which is gone. -/
  asGiven : p.text = "" ∨ fs.isAdrift p = true → shown = p

/-- The path that messages name is one of the two. -/
theorem shownAs (fs : FileSystem) (p : Path) :
    ShownAs fs p ((fs.absolute p).toOption.getD p) where
  absolute hp hadrift := by
    obtain ⟨full, hfull⟩ := exists_absolute hp hadrift
    rw [hfull]
    exact ⟨rfl, isAbsolute_of_absolute hfull⟩
  asGiven hgiven := by
    rw [FileSystem.absolute, Path.absolute?]
    rcases hgiven with hp | hadrift
    · rw [if_pos hp]
      split_ifs <;> rfl
    · rw [if_pos hadrift]
      rfl

/-- What is listed is a directory. -/
theorem isDirectory_of_list {fs : FileSystem} {p : Path} {entries : List (String × Kind)}
    (h : fs.list p = .ok entries) : fs.isDirectory p = true := by
  rw [list] at h
  obtain ⟨lead, hlead, hentries⟩ := except_bind_eq_ok_iff.mp h
  cases lead with
  | vacant q => cases hentries
  | adrift => exact isDirectory_iff.mpr (.inl hlead)
  | arrived q =>
      dsimp only at hentries
      split_ifs at hentries with hdir
      exact isDirectory_iff.mpr (.inr ⟨q, hlead, isDirectoryAt_iff.mp hdir⟩)

/-- Hooks are refused where there is no directory. -/
theorem outcome_installHooks_of_not_directory (h : w.files.isDirectory hooks = false) :
    outcome (home.installHooks hooks) w =
      (.error (.initHooks ((w.files.absolute hooks).toOption.getD hooks) .notDirectory), w) := by
  rw [installHooks, outcome_bind_of_ok (outcome_files w)]
  simp only [h, Bool.not_false, if_true]
  rfl

/-- Hooks are refused where there are none. -/
theorem outcome_installHooks_of_empty (h : w.files.list hooks = .ok []) :
    outcome (home.installHooks hooks) w =
      (.error (.initHooks ((w.files.absolute hooks).toOption.getD hooks) .empty), w) := by
  rw [installHooks, outcome_bind_of_ok (outcome_files w)]
  simp only [isDirectory_of_list h, h, Bool.not_true, Bool.false_eq_true, if_false]
  rfl

/-! ### Installing -/

/-- Where there are hooks, installing them is copying what is met from their directory on. -/
theorem outcome_installHooks_of_listed {e : String × Kind} {es : List (String × Kind)}
    (h : w.files.list hooks = .ok (e :: es)) (hroot : w.files.linkStat hooks = .ok n) :
    outcome (home.installHooks hooks) w =
      outcome (do
        Effect.onFiles (copyHooksFrom hooks home.hooksTarget Walk.depthLimit [] hooks n.kind)
        pure home.hooksTarget) w := by
  rw [installHooks, outcome_bind_of_ok (outcome_files w)]
  simp only [isDirectory_of_list h, h, hroot, Bool.not_true, Bool.false_eq_true, if_false]

/-- The directory of hooks is the first thing that is due. -/
theorem exists_due (hempty : base.EmptyAt home.path h) (hfollow : Followable base hooks) :
    ∃ q n, base.linkStat hooks = .ok n ∧ Due base home hooks h base ⟨[], hooks, q⟩ n [] := by
  obtain ⟨e, es, hlist⟩ := hfollow.nonempty
  obtain ⟨r, n, hplace, hnode, -⟩ := (list_eq_ok hlist).2 e List.mem_cons_self
  obtain ⟨q, hlead⟩ := exists_kept hplace
  obtain ⟨n', hvalid, hstat⟩ := Walk.Sighting.valid_root hlead
  refine ⟨q, n', hstat, ?_⟩
  constructor
  case met => exact ⟨q, hlead, .refl⟩
  case valid => exact hvalid
  case path => exact (List.append_nil _).symm
  case allowed => simp
  case root => exact fun _ => ⟨r, hplace, node?_parent (by simp) hnode⟩
  case grown => exact .refl _ _ _
  case above =>
    rw [List.dropLast_concat]
    exact hempty.directory
  case free => exact hempty.empty _ (by simp)

/-- **Hooks are installed in full.** -/
theorem installHooks_copies (hnamed : w.files.Named) (hempty : w.files.EmptyAt home.path h)
    (houtside : Outside w.files home hooks) (hfollow : Followable w.files hooks)
    (hfits : Fits w.files home hooks) :
    ∃ w', outcome (home.installHooks hooks) w = (.ok home.hooksTarget, w') ∧
      GrowsBelow HookPlace home.path w.files w'.files ∧
      w.files.CopiedFrom hooks (h ++ ["init.groovy.d"]) w.files w'.files := by
  obtain ⟨q, n, hroot, hdue⟩ := exists_due hempty hfollow
  obtain ⟨e, es, hlist⟩ := hfollow.nonempty
  have hdepth : pathLimit + 2 ≤ hooks.text.utf8ByteSize + Walk.depthLimit := by
    rw [Walk.depthLimit]
    omega
  obtain ⟨fs, hcopied, hgrown, hall⟩ :=
    copies_from hnamed hempty hfits houtside hfollow hdepth hdue
  refine ⟨{ w with files := fs }, ?_, hgrown, hall⟩
  rw [outcome_installHooks_of_listed hlist hroot]
  rw [outcome_bind_of_ok (outcome_onFiles_eq_ok_iff.mpr ⟨fs, hcopied, rfl⟩)]
  rfl

/-- What is met, and what stands in the directories that are, is left alone by what is added to a
home that is not met. -/
theorem kept_of_met (hnamed : base.Named) (hhome : base.CanHouse home.path)
    (hgrown : GrowsBelow HookPlace home.path base cur) (houtside : Outside base home hooks)
    (hm : Walk.Meets base hooks m) :
    cur.node? m.place = base.node? m.place ∧ ∀ q, base.place m.path = .ok q →
      cur.place m.path = .ok q ∧ cur.node? q = base.node? q ∧
        (base.node? q = some .directory → ∀ s, cur.node? (q ++ [s]) = base.node? (q ++ [s])) := by
  have hkeeps : ∀ {p n}, base.node? p = some n → cur.node? p = base.node? p := by
    intro p n hn
    exact ((hgrown.grows.keeps hn).resolve_right fun hw => hw.1).trans hn.symm
  obtain ⟨n, hvalid⟩ := hm.exists_valid hnamed
  refine ⟨hkeeps hvalid.stands, fun q hplace => ?_⟩
  have hlead := place_eq_ok_iff.mp hplace
  obtain ⟨n', hn', -⟩ := follow_arrived (lead_eq_arrived_iff.mp hlead).2.2
  refine ⟨place_eq_ok_iff.mpr (hgrown.grows.lead hlead), hkeeps hn', fun hdir s => ?_⟩
  exact node?_of_other hhome hgrown hdir (houtside m q hm hplace) s

/-- **Hooks are installed in a fresh home.** Where there is no directory of hooks, or none in it,
they are refused by the path of that directory, and nothing is changed. Where each link denotes
something and none leads back, and no path is too long, the directory for the hooks of the home has
at each place what the hooks directory has there, with links followed. Nothing else is ever
changed. -/
theorem hooks_installed {s : Surroundings} {requested? : Option Path} {w₀ : World}
    (hnamed : w₀.files.Named) (hwork : w₀.files.WorkDirStands)
    (hprepare : outcome (prepare s requested?) w₀ = (.ok home, w)) (hooks : Path) :
    (∃ shown, ShownAs w.files hooks shown ∧
      (w.files.isDirectory hooks = false →
        outcome (home.installHooks hooks) w = (.error (.initHooks shown .notDirectory), w)) ∧
      (w.files.list hooks = .ok [] →
        outcome (home.installHooks hooks) w = (.error (.initHooks shown .empty), w))) ∧
    (Outside w.files home hooks → Followable w.files hooks → Fits w.files home hooks →
      ∃ h w', w.files.place home.path = .ok h ∧
        outcome (home.installHooks hooks) w = (.ok home.hooksTarget, w') ∧ w'.files.Named ∧
        ∀ rel, (∀ s ∈ rel, Location.IsName s) →
          (w'.files.node? (h ++ "init.groovy.d" :: rel)).map Node.timeless =
            w.files.denoted? (rel.foldl Path.child hooks)) ∧
    ∀ answer w', outcome (home.installHooks hooks) w = (answer, w') →
      w'.files.workDir? = w.files.workDir? ∧
      (∀ p, (∀ h, w.files.place home.path = .ok h → ¬ h ++ ["init.groovy.d"] <+: p) →
        w'.files.node? p = w.files.node? p) ∧
      (Outside w.files home hooks → ∀ m, Walk.Meets w.files hooks m →
        w'.files.node? m.place = w.files.node? m.place ∧
        ∀ q, w.files.place m.path = .ok q → w'.files.place m.path = .ok q ∧
          w'.files.node? q = w.files.node? q ∧ (w.files.node? q = some .directory →
            ∀ s, w'.files.node? (q ++ [s]) = w.files.node? (q ++ [s]))) := by
  obtain ⟨hhome, -⟩ := canHouse_of_prepare hwork hprepare
  have hnamed' := named_of_prepare hnamed hprepare
  refine ⟨⟨_, shownAs w.files hooks, outcome_installHooks_of_not_directory,
    outcome_installHooks_of_empty⟩, ?_, ?_⟩
  · intro houtside hfollow hfits
    obtain ⟨h, hempty⟩ := hhome.resolve_left (by simp [hfits.stands])
    obtain ⟨w', hinstalled, hgrown, hall⟩ :=
      installHooks_copies hnamed' hempty houtside hfollow hfits
    refine ⟨h, w', hempty.place, hinstalled, named_of_growsBelow hnamed' hgrown, ?_⟩
    intro rel hrel
    rw [List.append_cons]
    exact hall.copied rel hrel
  · intro answer w' houtcome
    have hgrown := keeps_installHooks hnamed' hhome hooks w (.refl _ _ _)
    rw [houtcome] at hgrown
    refine ⟨hgrown.grows.workDir, fun p hp => node?_outside hgrown hp, fun houtside m hm => ?_⟩
    exact kept_of_met hnamed' hhome hgrown houtside hm

/-! ### Homes and hooks that can be looked through -/

/-- A home in the world that its preparation leaves. -/
def Prepared (home : RunHome) (w : World) : Prop :=
  ∃ s requested? w₀, w₀.files.Named ∧ w₀.files.WorkDirStands ∧
    outcome (prepare s requested?) w₀ = (.ok home, w)

/-- An empty directory is prepared as it is. -/
theorem prepare_empty {fs : FileSystem} {p : Path} (hlist : fs.list p = .ok []) :
    outcome (prepare default (some p)) { files := fs } = (.ok ⟨p, false⟩, { files := fs }) :=
  outcome_prepare_existing (isDirectory_of_list hlist) hlist

/-- So it is a home in the world as it is. -/
theorem prepared_of_empty {fs : FileSystem} {p : Path} (hnamed : fs.Named)
    (hwork : fs.WorkDirStands) (hlist : fs.list p = .ok []) :
    Prepared ⟨p, false⟩ { files := fs } :=
  ⟨default, some p, { files := fs }, hnamed, hwork, prepare_empty hlist⟩

/-- What is to be seen of each of the hooks: it can be looked at and does not lead back or to the
place of the home, and neither its path nor that of its copy is too long. -/
def Unproblematic (fs : FileSystem) (home : RunHome) (hooks : Path) (m : Walk.Sighting) : Bool :=
  (fs.stat m.path).toOption.isSome &&
    m.trail.all (fun d => (fs.place m.path).toOption != some d.2) &&
    (fs.place m.path).toOption != some ["home"] &&
    decide (m.path.text.utf8ByteSize ≤ pathLimit) &&
    ((m.path.below? hooks).all fun rel =>
      decide ((home.hooksTarget.join rel).text.utf8ByteSize ≤ pathLimit))

/-- What there is to a hook that is unproblematic. -/
theorem seen_of_unproblematic {fs : FileSystem} (hseen : Unproblematic fs home hooks m = true) :
    (∃ n, fs.stat m.path = .ok n) ∧ ¬ m.Loops fs ∧ fs.place m.path ≠ .ok ["home"] ∧
      m.path.text.utf8ByteSize ≤ pathLimit ∧
      ∀ rel, m.path.below? hooks = some rel →
        (home.hooksTarget.join rel).text.utf8ByteSize ≤ pathLimit := by
  simp only [Unproblematic, Bool.and_eq_true, decide_eq_true_eq, List.all_eq_true] at hseen
  obtain ⟨⟨⟨⟨hstat, htrail⟩, hhome⟩, hsize⟩, hcopied⟩ := hseen
  refine ⟨?_, ?_, ?_, hsize, fun rel hrel => ?_⟩
  · cases hlook : fs.stat m.path with
    | error e => simp [hlook, Except.toOption] at hstat
    | ok n => exact ⟨n, rfl⟩
  · rintro ⟨-, d, hd, hback⟩
    have hnot := htrail d hd
    simp [hback, Except.toOption] at hnot
  · intro hplace
    simp [hplace, Except.toOption] at hhome
  · simpa [hrel] using hcopied

/-- Hooks that do not lie deep can be looked at one by one. -/
theorem unproblematic_of_allFrom {fs : FileSystem} {q : Place}
    (hroot : fs.lead .kept hooks = .ok (.arrived q))
    (hall : Walk.allFrom fs (Unproblematic fs home hooks) 5 ⟨[], hooks, q⟩ = true)
    (hm : Walk.Meets fs hooks m) : Unproblematic fs home hooks m = true := by
  obtain ⟨q', hlead, hreach⟩ := hm
  cases hroot.symm.trans hlead
  exact Walk.holds_of_allFrom hall hreach

/-- Hooks of which each is unproblematic can be walked to the end. -/
theorem followable_of_unproblematic {fs : FileSystem} {e : String × Kind}
    {es : List (String × Kind)} (hlist : fs.list hooks = .ok (e :: es))
    (hall : ∀ m, Walk.Meets fs hooks m → Unproblematic fs home hooks m = true) :
    Followable fs hooks where
  nonempty := ⟨e, es, hlist⟩
  denotes m hm _ := (seen_of_unproblematic (hall m hm)).1
  noLoop m hm := (seen_of_unproblematic (hall m hm)).2.1

/-! ### A directory that is reached by two links -/

/-- An empty directory for a home, and hooks of which two are links to one directory. -/
def sharedFiles : FileSystem :=
  { root := [
      ("home", .directory []),
      ("hooks", .directory [
        ("first", .link ⟨"../shared"⟩),
        ("second", .link ⟨"../shared"⟩)]),
      ("shared", .directory [
        ("more", .directory [("tools.groovy", .file "// tools\n".toUTF8 (.at 7))])])] }

/-- The names in it are allowed. -/
theorem sharedFiles_named : sharedFiles.Named := named_of_namesAllowed (by decide)

/-- The working directory is the root. -/
theorem sharedFiles_workDir : sharedFiles.WorkDirStands := by
  intro d hd
  cases hd
  rfl

/-- All that is met from those hooks on is unproblematic. -/
theorem sharedFiles_unproblematic (hm : Walk.Meets sharedFiles ⟨"hooks"⟩ m) :
    Unproblematic sharedFiles ⟨⟨"home"⟩, false⟩ ⟨"hooks"⟩ m = true := by
  have hroot : sharedFiles.lead .kept ⟨"hooks"⟩ = .ok (.arrived ["hooks"]) := rfl
  exact unproblematic_of_allFrom hroot (by decide +kernel) hm

/-- So the hooks can be walked to the end. -/
theorem sharedFiles_followable : Followable sharedFiles ⟨"hooks"⟩ :=
  followable_of_unproblematic (e := ("first", .link)) rfl fun _ hm => sharedFiles_unproblematic hm

/-- Whatever the path of the home is, it is not met. -/
theorem sharedFiles_outside (hplace : sharedFiles.place home.path = .ok ["home"]) :
    Outside sharedFiles home ⟨"hooks"⟩ := by
  intro m q hm hq hhome
  cases hplace.symm.trans hhome
  exact (seen_of_unproblematic (sharedFiles_unproblematic hm)).2.2.1 hq

/-- The empty directory is a home for them. -/
theorem sharedFiles_fits : Fits sharedFiles ⟨⟨"home"⟩, false⟩ ⟨"hooks"⟩ where
  stands := by decide
  met _ hm := (seen_of_unproblematic (sharedFiles_unproblematic hm)).2.2.2.1
  copied _ hm := (seen_of_unproblematic (sharedFiles_unproblematic hm)).2.2.2.2

/-- The general theorem for these hooks: the directory is copied twice. -/
theorem hooks_installed_shared :
    sharedFiles.Named ∧ sharedFiles.WorkDirStands ∧
      outcome (prepare default (some ⟨"home"⟩)) { files := sharedFiles } =
        (.ok ⟨⟨"home"⟩, false⟩, { files := sharedFiles }) ∧
      Outside sharedFiles ⟨⟨"home"⟩, false⟩ ⟨"hooks"⟩ ∧ Followable sharedFiles ⟨"hooks"⟩ ∧
      Fits sharedFiles ⟨⟨"home"⟩, false⟩ ⟨"hooks"⟩ ∧
      ∃ w', outcome (installHooks ⟨⟨"home"⟩, false⟩ ⟨"hooks"⟩) { files := sharedFiles } =
          (.ok ⟨"home/init.groovy.d"⟩, w') ∧
        ∀ name ∈ ["first", "second"],
          (w'.files.node? ["home", "init.groovy.d", name, "more", "tools.groovy"]).map
            Node.timeless = some (.file "// tools\n".toUTF8 (.at 0)) := by
  have hempty : sharedFiles.list ⟨"home"⟩ = .ok [] := rfl
  have hprepare := prepare_empty hempty
  have hplace : sharedFiles.place ⟨"home"⟩ = .ok ["home"] := rfl
  have houtside : Outside sharedFiles ⟨⟨"home"⟩, false⟩ ⟨"hooks"⟩ := sharedFiles_outside hplace
  obtain ⟨-, hinstalled, -⟩ :=
    hooks_installed sharedFiles_named sharedFiles_workDir hprepare ⟨"hooks"⟩
  obtain ⟨h, w', hh, hanswer, -, hall⟩ :=
    hinstalled houtside sharedFiles_followable sharedFiles_fits
  cases hplace.symm.trans hh
  refine ⟨sharedFiles_named, sharedFiles_workDir, hprepare, houtside, sharedFiles_followable,
    sharedFiles_fits, w', hanswer, fun name hname => ?_⟩
  have hdenoted : ∀ name ∈ ["first", "second"],
      (∀ s ∈ [name, "more", "tools.groovy"], Location.IsName s) ∧
        sharedFiles.denoted? ([name, "more", "tools.groovy"].foldl Path.child ⟨"hooks"⟩) =
          some (.file "// tools\n".toUTF8 (.at 0)) := by decide
  obtain ⟨hnames, hfile⟩ := hdenoted name hname
  exact (hall _ hnames).trans hfile

/-! ### Homes that take no hooks -/

/-- Hooks are not installed if their directory in the home cannot be made. -/
theorem outcome_installHooks_of_createDirs {e : String × Kind} {es : List (String × Kind)}
    {f : Fault} (hlist : w.files.list hooks = .ok (e :: es))
    (hroot : w.files.linkStat hooks = .ok .directory)
    (hmade : outcome (createDirs (home.hooksTarget.join ⟨""⟩)) w.files = (.error f, w.files)) :
    outcome (home.installHooks hooks) w = (.error (.io f), w) := by
  have hbelow : hooks.below? hooks = some ⟨""⟩ :=
    @Path.below?_of_components hooks hooks [] (List.append_nil _).symm
  have hcopy : outcome (copyHooksFrom hooks home.hooksTarget Walk.depthLimit [] hooks .directory)
      w.files = (.error (.io f), w.files) := by
    have hsettle : Walk.settle w.files [] hooks .directory = .ok .directory := rfl
    rw [Walk.depthLimit, copyHooksFrom, outcome_bind_of_ok (outcome_get w.files), hsettle]
    dsimp only
    refine outcome_bind_of_error ?_
    rw [copyHook, hbelow]
    dsimp only
    rw [if_pos rfl, outcome_mapFailure, hmade]
    rfl
  rw [outcome_installHooks_of_listed hlist hroot]
  refine outcome_bind_of_error ?_
  rw [outcome_effect_onFiles]
  dsimp only [Node.kind]
  rw [hcopy]

/-! ### A working directory that was removed -/

/-- The same files for a process whose working directory was removed. -/
def goneFiles : FileSystem := { sharedFiles with workDir? := none }

/-- The names in it are those of before. -/
theorem goneFiles_named : goneFiles.Named := sharedFiles_named

/-- There is no working directory that would have to stand. -/
theorem goneFiles_workDir : goneFiles.WorkDirStands := by
  intro d hd
  cases hd

/-- All that is met from the hooks on is unproblematic, also for a home that is the working
directory. -/
theorem goneFiles_unproblematic (hm : Walk.Meets goneFiles ⟨"/hooks"⟩ m) :
    Unproblematic goneFiles ⟨⟨"."⟩, false⟩ ⟨"/hooks"⟩ m = true := by
  have hroot : goneFiles.lead .kept ⟨"/hooks"⟩ = .ok (.arrived ["hooks"]) := rfl
  exact unproblematic_of_allFrom hroot (by decide +kernel) hm

/-- By their absolute path the hooks can be walked to the end. -/
theorem goneFiles_followable : Followable goneFiles ⟨"/hooks"⟩ :=
  followable_of_unproblematic (e := ("first", .link)) rfl fun _ hm => goneFiles_unproblematic hm

/-- A home that is gone has no place. -/
theorem goneFiles_outside : Outside goneFiles ⟨⟨"."⟩, false⟩ ⟨"/hooks"⟩ := by
  intro m q _ _ hhome
  have hplace : goneFiles.place ⟨"."⟩ = .error .notFound := rfl
  cases hplace.symm.trans hhome

/-! ### A home with a long path -/

/-- No directory is made under a path that is too long. -/
theorem createDirs_of_long {fs : FileSystem} {p : Path} (hnull : '\x00' ∉ p.text.toList)
    (hlong : pathLimit < p.text.utf8ByteSize) :
    outcome (createDirs p) fs = (.error .nameTooLong, fs) := by
  have hempty : p.text ≠ "" := by
    intro hempty
    rw [hempty] at hlong
    exact absurd hlong (by decide)
  have hcheck : checkPath p = .error .nameTooLong := by
    rw [checkPath, if_neg hnull, if_neg hempty, if_pos hlong]
  have hcreate : fs.createDir p = .error .nameTooLong := by
    rw [createDir, hcheck]
    rfl
  have hdir : fs.isDirectory p = false := by
    rw [isDirectory, stat, lead, hcheck]
    rfl
  rw [createDirs, if_neg hempty, createDirAfter, outcome_bind_of_ok (outcome_get fs), hcreate]
  dsimp only
  rw [outcome_bind_of_ok (outcome_get fs), hdir]
  rfl

/-- Hooks are not installed where the path of their directory in the home is too long. -/
theorem outcome_installHooks_of_long {e : String × Kind} {es : List (String × Kind)}
    (hlist : w.files.list hooks = .ok (e :: es)) (hroot : w.files.linkStat hooks = .ok .directory)
    (hnull : '\x00' ∉ home.path.text.toList)
    (hlong : pathLimit < home.path.text.utf8ByteSize + "init.groovy.d".utf8ByteSize) :
    outcome (home.installHooks hooks) w = (.error (.io .nameTooLong), w) := by
  have hhooks := nameAllowed_hooks.isName
  have hlonger : home.path.text.utf8ByteSize + "init.groovy.d".utf8ByteSize ≤
      home.hooksTarget.text.utf8ByteSize := Path.size_add_le_child hhooks
  obtain ⟨sep, -, htext⟩ := Path.exists_text_join (p := home.hooksTarget) (q := ⟨""⟩) rfl
  refine outcome_installHooks_of_createDirs hlist hroot (createDirs_of_long ?_ ?_)
  · rw [Path.mem_text_join rfl (by decide), not_or]
    exact ⟨(noNull_child hhooks).mpr ⟨hnull, nameAllowed_hooks.noNull⟩, by simp⟩
  · rw [htext, String.utf8ByteSize_append, String.utf8ByteSize_append]
    omega

/-! ### A hook with a long path -/

/-- A hook is not copied from a path that is too long. -/
theorem outcome_copyHook_of_long {fs fs' : FileSystem} {target p rel : Path}
    (hbelow : p.below? hooks = some rel) (hempty : p.text ≠ "")
    (hlong : pathLimit < p.text.utf8ByteSize) :
    outcome (copyHook hooks target p .file) fs ≠ (.ok (), fs') := by
  intro hcopied
  rw [copyHook, hbelow] at hcopied
  dsimp only at hcopied
  rw [if_neg (by simp), outcome_mapFailure_eq_ok_iff, outcome_change_eq_ok_iff] at hcopied
  obtain ⟨bytes, time, -, hstat, -⟩ := copy_spec hcopied
  exact not_bearable_of_long hempty hlong (.inl ⟨_, hstat⟩)

/-- A file is copied as it is met. -/
theorem outcome_copyHooksFrom_file (target p : Path) (depth : Nat) (trail : Walk.Trail)
    (fs : FileSystem) :
    outcome (copyHooksFrom hooks target (depth + 1) trail p .file) fs =
      outcome (copyHook hooks target p .file) fs := by
  have hsettle : Walk.settle fs trail p .file = .ok .file := rfl
  rw [copyHooksFrom, outcome_bind_of_ok (outcome_get fs), hsettle]

/-- A single hook is not installed if its path is too long. -/
theorem outcome_installHooks_of_long_hook {s : String} {w' : World}
    (hlist : w.files.list hooks = .ok [(s, .file)])
    (hroot : w.files.linkStat hooks = .ok .directory) (hempty : hooks.text ≠ "")
    (hs : Location.IsName s)
    (hlong : pathLimit < hooks.text.utf8ByteSize + s.utf8ByteSize) :
    outcome (home.installHooks hooks) w ≠ (.ok home.hooksTarget, w') := by
  intro hinstalled
  rw [outcome_installHooks_of_listed hlist hroot, outcome_bind_eq_ok_iff] at hinstalled
  obtain ⟨⟨⟩, w₁, hcopied, -⟩ := hinstalled
  obtain ⟨fs, hcopied, -⟩ := outcome_onFiles_eq_ok_iff.mp hcopied
  have hsettle : Walk.settle w.files [] hooks .directory = .ok .directory := rfl
  rw [Walk.depthLimit, copyHooksFrom, outcome_bind_of_ok (outcome_get w.files)] at hcopied
  dsimp only [Node.kind] at hcopied
  rw [hsettle, hlist] at hcopied
  dsimp only at hcopied
  obtain ⟨-, fs₁, -, hcopied⟩ := outcome_bind_eq_ok_iff.mp hcopied
  rw [List.forM_eq_forM, List.forM_cons] at hcopied
  obtain ⟨⟨⟩, fs₂, hcopied, -⟩ := outcome_bind_eq_ok_iff.mp hcopied
  have hbelow : (hooks.child s).below? hooks = some ⟨Text.joined "/" [s]⟩ :=
    Path.below?_of_components (Path.components_child hs hempty)
  exact outcome_copyHook_of_long hbelow (Path.text_child_ne_empty hs)
    (Nat.lt_of_lt_of_le hlong (Path.size_add_le_child hs))
    ((outcome_copyHooksFrom_file _ _ _ _ _).symm.trans hcopied)

/-- An empty directory for a home, and another one with a single hook. -/
def deepHooks : FileSystem :=
  { root := [
      ("d", .directory [("long.groovy", .file .empty (.at 0))]),
      ("home", .directory [])] }

/-- The names in it are allowed. -/
theorem deepHooks_named : deepHooks.Named := named_of_namesAllowed (by decide)

/-- The working directory is the root. -/
theorem deepHooks_workDir : deepHooks.WorkDirStands := by
  intro d hd
  cases hd
  rfl

/-- The other directory can be named with many slashes. -/
theorem deepHooks_lead {n : Nat} (hn : n < pathLimit) (last : AtEnd) :
    deepHooks.lead last (Path.slashed "d" n) = .ok (.arrived ["d"]) := by
  have hd : "d".utf8ByteSize = 1 := rfl
  exact lead_slashed (by decide) (by omega) rfl rfl last

/-- The directory and the hook are all that is met. -/
theorem deepHooks_met {k : Nat} (hk : k < pathLimit)
    (hm : Walk.Meets deepHooks (Path.slashed "d" k) m) :
    (m.path = Path.slashed "d" k ∧ m.place = ["d"]) ∨
      (m.path = (Path.slashed "d" k).child "long.groovy" ∧ m.place = ["d", "long.groovy"]) :=
  Walk.meets_slashed deepHooks_named (deepHooks_lead hk) rfl hm

/-- Neither the directory nor the hook is a link. -/
theorem deepHooks_not_link {k : Nat} (hk : k < pathLimit) {target : Path}
    (hm : Walk.Meets deepHooks (Path.slashed "d" k) m) :
    deepHooks.node? m.place ≠ some (.link target) := by
  have hdir : deepHooks.node? ["d"] = some .directory := rfl
  have hfile : deepHooks.node? ["d", "long.groovy"] = some (.file .empty (.at 0)) := rfl
  rcases deepHooks_met hk hm with ⟨-, hat⟩ | ⟨-, hat⟩
  · rw [hat, hdir]
    simp
  · rw [hat, hfile]
    simp

/-- So the directory can be walked to the end, whatever its path. -/
theorem deepHooks_followable {k : Nat} (hk : k < pathLimit) :
    Followable deepHooks (Path.slashed "d" k) where
  nonempty := ⟨("long.groovy", .file), [], by rw [list, deepHooks_lead hk]; rfl⟩
  denotes _ hm hlink := hlink.elim fun _ htarget => absurd htarget (deepHooks_not_link hk hm)
  noLoop _ hm := fun ⟨⟨_, htarget⟩, _⟩ => deepHooks_not_link hk hm htarget

/-- The empty directory is not met. -/
theorem deepHooks_outside {k : Nat} (hk : k < pathLimit) :
    Outside deepHooks ⟨⟨"home"⟩, false⟩ (Path.slashed "d" k) := by
  intro m q hm hplace hhome
  have hat : deepHooks.place ⟨"home"⟩ = .ok ["home"] := rfl
  cases hat.symm.trans hhome
  obtain ⟨n, hvalid⟩ := hm.exists_valid deepHooks_named
  have hlink : n.kind ≠ .link := by
    intro hkind
    cases n with
    | link target => exact deepHooks_not_link hk hm hvalid.stands
    | file bytes time => cases hkind
    | directory => cases hkind
  have hsame := hvalid.straight hlink hplace
  rcases deepHooks_met hk hm with ⟨-, hat⟩ | ⟨-, hat⟩
  · rw [hat] at hsame
    simp at hsame
  · rw [hat] at hsame
    simp at hsame

/-- The path of a copy is short. -/
theorem deepHooks_copied {k : Nat} (hk : k < pathLimit)
    (m : Walk.Sighting) (hm : Walk.Meets deepHooks (Path.slashed "d" k) m) (rel : Path)
    (hrel : m.path.below? (Path.slashed "d" k) = some rel) :
    ((hooksTarget ⟨⟨"home"⟩, false⟩).join rel).text.utf8ByteSize ≤ pathLimit := by
  have hname : Location.IsName "long.groovy" := by decide
  have hnonempty : (Path.slashed "d" k).text ≠ "" := by simp [Path.slashed]
  obtain ⟨names, hnames, hpath⟩ : ∃ names ∈ [[], ["long.groovy"]],
      m.path.components = (Path.slashed "d" k).components ++ names.map .name := by
    rcases deepHooks_met hk hm with ⟨hpath, -⟩ | ⟨hpath, -⟩
    · exact ⟨[], by simp, by simp [hpath]⟩
    · exact ⟨["long.groovy"], by simp, hpath ▸ Path.components_child hname hnonempty⟩
  cases (Path.below?_of_components hpath).symm.trans hrel
  have hshort : ∀ names ∈ [[], ["long.groovy"]],
      ((hooksTarget ⟨⟨"home"⟩, false⟩).join ⟨Text.joined "/" names⟩).text.utf8ByteSize ≤
        pathLimit := by decide
  exact hshort names hnames

/-! ### Where hooks are not installed, or not refused by an absolute path -/

/-- The empty path is refused as it is. -/
theorem not_absolute_of_empty_path :
    ¬ ∀ w home hooks, Prepared home w → w.files.workDir? ≠ none →
      w.files.isDirectory hooks = false → ∃ shown : Path, shown.isAbsolute = true ∧
        outcome (home.installHooks hooks) w = (.error (.initHooks shown .notDirectory), w) := by
  intro hall
  have hempty : sharedFiles.list ⟨"home"⟩ = .ok [] := rfl
  have hdir : sharedFiles.isDirectory ⟨""⟩ = false := rfl
  have hgiven : (sharedFiles.absolute ⟨""⟩).toOption.getD ⟨""⟩ = ⟨""⟩ := rfl
  obtain ⟨shown, habsolute, hrefused⟩ := hall _ _ _
    (prepared_of_empty sharedFiles_named sharedFiles_workDir hempty) (by simp [sharedFiles]) hdir
  rw [outcome_installHooks_of_not_directory hdir, hgiven] at hrefused
  cases hrefused
  cases habsolute

/-- In a working directory that was removed a relative path is refused as it is. -/
theorem not_absolute_of_removed :
    ¬ ∀ w home hooks, Prepared home w → hooks.text ≠ "" →
      w.files.isDirectory hooks = false → ∃ shown : Path, shown.isAbsolute = true ∧
        outcome (home.installHooks hooks) w = (.error (.initHooks shown .notDirectory), w) := by
  intro hall
  have hempty : goneFiles.list ⟨"/home"⟩ = .ok [] := rfl
  have hdir : goneFiles.isDirectory ⟨"hooks"⟩ = false := rfl
  have hgiven : (goneFiles.absolute ⟨"hooks"⟩).toOption.getD ⟨"hooks"⟩ = ⟨"hooks"⟩ := rfl
  obtain ⟨shown, habsolute, hrefused⟩ := hall _ _ ⟨"hooks"⟩
    (prepared_of_empty goneFiles_named goneFiles_workDir hempty) (by simp) hdir
  rw [outcome_installHooks_of_not_directory hdir, hgiven] at hrefused
  cases hrefused
  cases habsolute

/-- A home that is a working directory which was removed takes no hooks. -/
theorem not_installed_of_removed :
    ¬ ∀ w home hooks, Prepared home w → Outside w.files home hooks →
      Followable w.files hooks →
      (∀ m, Walk.Meets w.files hooks m → m.path.text.utf8ByteSize ≤ pathLimit) →
      (∀ m, Walk.Meets w.files hooks m → ∀ rel, m.path.below? hooks = some rel →
        (home.hooksTarget.join rel).text.utf8ByteSize ≤ pathLimit) →
      ∃ w', outcome (home.installHooks hooks) w = (.ok home.hooksTarget, w') := by
  intro hall
  have hempty : goneFiles.list ⟨"."⟩ = .ok [] := rfl
  obtain ⟨w', hinstalled⟩ := hall _ _ ⟨"/hooks"⟩
    (prepared_of_empty goneFiles_named goneFiles_workDir hempty) goneFiles_outside
    goneFiles_followable
    (fun _ hm => (seen_of_unproblematic (goneFiles_unproblematic hm)).2.2.2.1)
    fun _ hm => (seen_of_unproblematic (goneFiles_unproblematic hm)).2.2.2.2
  have hmade : outcome (createDirs ((hooksTarget ⟨⟨"."⟩, false⟩).join ⟨""⟩)) goneFiles =
      (.error .notFound, goneFiles) := rfl
  have hrefused : outcome (installHooks ⟨⟨"."⟩, false⟩ ⟨"/hooks"⟩) { files := goneFiles } =
      (.error (.io .notFound), { files := goneFiles }) :=
    outcome_installHooks_of_createDirs (e := ("first", .link)) rfl rfl hmade
  rw [hrefused] at hinstalled
  cases hinstalled

/-- A path as long as a path may be is too long for a home. -/
theorem not_installed_of_long_home :
    ¬ ∀ w home hooks, Prepared home w → Outside w.files home hooks →
      Followable w.files hooks → w.files.isAdrift home.path = false →
      (∀ m, Walk.Meets w.files hooks m → m.path.text.utf8ByteSize ≤ pathLimit) →
      ∃ w', outcome (home.installHooks hooks) w = (.ok home.hooksTarget, w') := by
  intro hall
  obtain ⟨n, hfits, hmany⟩ : ∃ n, "home".utf8ByteSize + n ≤ pathLimit ∧
      pathLimit < "home".utf8ByteSize + n + "init.groovy.d".utf8ByteSize :=
    ⟨4091, by decide, by decide⟩
  have hlead : sharedFiles.lead .followed (Path.slashed "home" n) = .ok (.arrived ["home"]) :=
    lead_slashed (by decide) hfits rfl rfl .followed
  have hlist : sharedFiles.list (Path.slashed "home" n) = .ok [] := by
    rw [list, hlead]
    rfl
  obtain ⟨w', hinstalled⟩ := hall _ _ ⟨"hooks"⟩
    (prepared_of_empty sharedFiles_named sharedFiles_workDir hlist)
    (sharedFiles_outside (place_eq_ok_iff.mpr hlead)) sharedFiles_followable
    (lead_eq_arrived_iff.mp hlead).2.1
    fun _ hm => (seen_of_unproblematic (sharedFiles_unproblematic hm)).2.2.2.1
  have hrefused : outcome (installHooks ⟨Path.slashed "home" n, false⟩ ⟨"hooks"⟩)
      { files := sharedFiles } = (.error (.io .nameTooLong), { files := sharedFiles }) := by
    refine outcome_installHooks_of_long (e := ("first", .link)) rfl rfl (by simp [Path.slashed]) ?_
    rw [Path.size_slashed]
    exact hmany
  rw [hrefused] at hinstalled
  cases hinstalled

/-- A hook under a path that is too long is not copied, however short the path of its copy is. -/
theorem not_installed_of_long_hook :
    ¬ ∀ w home hooks, Prepared home w → Outside w.files home hooks →
      Followable w.files hooks → w.files.isAdrift home.path = false →
      (∀ m, Walk.Meets w.files hooks m → ∀ rel, m.path.below? hooks = some rel →
        (home.hooksTarget.join rel).text.utf8ByteSize ≤ pathLimit) →
      ∃ w', outcome (home.installHooks hooks) w = (.ok home.hooksTarget, w') := by
  intro hall
  have hname : Location.IsName "long.groovy" := by decide
  obtain ⟨n, hn, hmany⟩ : ∃ n, n < pathLimit ∧
      pathLimit < "d".utf8ByteSize + n + "long.groovy".utf8ByteSize :=
    ⟨4089, by decide, by decide⟩
  have hempty : deepHooks.list ⟨"home"⟩ = .ok [] := rfl
  have hlist : deepHooks.list (Path.slashed "d" n) = .ok [("long.groovy", .file)] := by
    rw [list, deepHooks_lead hn]
    rfl
  have hroot : deepHooks.linkStat (Path.slashed "d" n) = .ok .directory := by
    rw [linkStat, deepHooks_lead hn]
    rfl
  have hnonempty : (Path.slashed "d" n).text ≠ "" := by simp [Path.slashed]
  obtain ⟨w', hinstalled⟩ := hall _ _ (Path.slashed "d" n)
    (prepared_of_empty deepHooks_named deepHooks_workDir hempty) (deepHooks_outside hn)
    (deepHooks_followable hn) rfl (deepHooks_copied hn)
  refine outcome_installHooks_of_long_hook hlist hroot hnonempty hname ?_ hinstalled
  rw [Path.size_slashed]
  exact hmany

/-- **Not all hooks fit into all homes, and not all have an absolute path to be refused by.** The
empty path has no absolute form, and in a working directory that was removed no relative path has
one. A home that is such a directory takes nothing. The path of the directory for hooks can be too
long, and so can the path of a hook. -/
theorem not_hooks_installed :
    (¬ ∀ w home hooks, Prepared home w → w.files.workDir? ≠ none →
      w.files.isDirectory hooks = false → ∃ shown : Path, shown.isAbsolute = true ∧
        outcome (home.installHooks hooks) w = (.error (.initHooks shown .notDirectory), w)) ∧
    (¬ ∀ w home hooks, Prepared home w → hooks.text ≠ "" →
      w.files.isDirectory hooks = false → ∃ shown : Path, shown.isAbsolute = true ∧
        outcome (home.installHooks hooks) w = (.error (.initHooks shown .notDirectory), w)) ∧
    (¬ ∀ w home hooks, Prepared home w → Outside w.files home hooks →
      Followable w.files hooks →
      (∀ m, Walk.Meets w.files hooks m → m.path.text.utf8ByteSize ≤ pathLimit) →
      (∀ m, Walk.Meets w.files hooks m → ∀ rel, m.path.below? hooks = some rel →
        (home.hooksTarget.join rel).text.utf8ByteSize ≤ pathLimit) →
      ∃ w', outcome (home.installHooks hooks) w = (.ok home.hooksTarget, w')) ∧
    (¬ ∀ w home hooks, Prepared home w → Outside w.files home hooks →
      Followable w.files hooks → w.files.isAdrift home.path = false →
      (∀ m, Walk.Meets w.files hooks m → m.path.text.utf8ByteSize ≤ pathLimit) →
      ∃ w', outcome (home.installHooks hooks) w = (.ok home.hooksTarget, w')) ∧
    ¬ ∀ w home hooks, Prepared home w → Outside w.files home hooks →
      Followable w.files hooks → w.files.isAdrift home.path = false →
      (∀ m, Walk.Meets w.files hooks m → ∀ rel, m.path.below? hooks = some rel →
        (home.hooksTarget.join rel).text.utf8ByteSize ≤ pathLimit) →
      ∃ w', outcome (home.installHooks hooks) w = (.ok home.hooksTarget, w') :=
  ⟨not_absolute_of_empty_path, not_absolute_of_removed, not_installed_of_removed,
    not_installed_of_long_home, not_installed_of_long_hook⟩

end RunHome

end RealmBoot
