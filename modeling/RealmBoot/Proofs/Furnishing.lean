import RealmBoot.Launch.Run
import RealmBoot.Proofs.BelowHome
import RealmBoot.Proofs.WalkCourse

/-!
# Furnishing a Home

A home is furnished with copies of the init hooks and with links to the extension modules. The
hooks are copied while they are walked, links followed, and the directory of hooks may even hold the
home itself; still, whatever is copied comes to stand below one directory of the home, since the
path under which a walk finds something continues the path of its root by names. The modules are
linked under their names in another directory of the home.

## Main results

* `RunHome.keeps_installHooks`: what copying the hooks adds.
* `PluginList.keeps_prepare`: what linking the modules adds.
* `Launch.furnish_growsBelow`: what furnishing a home adds, also if it fails.
-/

namespace RealmBoot

/-! ### Paths met on a walk -/

namespace Path

variable {p base : Path} {names : List String} {s : String}

/-- The components of a path that is one name longer. -/
theorem components_child (hs : Location.IsName s) (hp : p.text ≠ "") :
    (p.child s).components = p.components ++ [.name s] := by
  have hname : [s].filterMap Component.ofSegment? = [.name s] := by
    simp [Component.ofSegment?, hs.2.1, hs.2.2.1]
  rw [components, components, isAbsolute_child hs hp, segments_child hs]
  split_ifs with habsolute
  · rw [List.filterMap_append, hname, List.cons_append]
  · cases hsegments : p.segments with
    | nil => simp [hname, hs.2.1]
    | cons t rest =>
        by_cases hdot : t = "."
        · subst hdot
          simp [hname]
        · have hmore : (t :: rest ++ [s]).filterMap Component.ofSegment? =
              (t :: rest).filterMap Component.ofSegment? ++ [.name s] := by
            rw [List.filterMap_append, hname]
          simpa [hdot] using hmore

/-- A path made longer by names is seen from the shorter one as those names. -/
theorem below?_of_components (h : p.components = base.components ++ names.map .name) :
    p.below? base = some ⟨Text.joined "/" names⟩ := by
  have htexts : (names.map Component.name).map Component.text = names := by
    rw [List.map_map]
    exact List.map_id names
  rw [below?, h, if_pos (List.isPrefixOf_iff_prefix.mpr (List.prefix_append _ _)),
    List.drop_left, ofComponents_of_relative (by simp), htexts]

end Path

open FileSystem

variable {base fs : FileSystem} {home : RunHome}

namespace RunHome

/-! ### Hooks -/

/-- What copying the hooks adds to a home: directories and files in the directory of the hooks. -/
structure HookPlace (rel : Place) (n : Node) : Prop where
  /-- It is that directory, or below it. -/
  below : ∃ more, rel = "init.groovy.d" :: more
  /-- Links are followed, and not copied. -/
  noLink : n.kind ≠ .link
  /-- The names are those of hooks. -/
  named : ∀ s ∈ rel, NameAllowed s

/-- The directory for hooks has a name that is allowed. -/
theorem nameAllowed_hooks : NameAllowed "init.groovy.d" := by decide

/-- A hook has its place among the hooks of the home. -/
theorem hookPlace {names rel : List String} (hnames : ∀ s ∈ names, NameAllowed s)
    (hrel : rel <+: "init.groovy.d" :: names) (hne : rel ≠ []) {n : Node} (hn : n.kind ≠ .link) :
    HookPlace rel n where
  below := by
    cases rel with
    | nil => exact absurd rfl hne
    | cons s more => exact ⟨more, by rw [(List.cons_prefix_cons.mp hrel).1]⟩
  noLink := hn
  named s hs := by
    rcases List.mem_cons.mp (hrel.subset hs) with rfl | hs
    · exact nameAllowed_hooks
    · exact hnames s hs

/-- While hooks are copied, everything keeps an allowed name. -/
theorem named_of_growsBelow (hnamed : base.Named)
    (h : GrowsBelow HookPlace home.path base fs) : fs.Named := by
  intro p n hn s hs
  rcases h.added hn with hold | ⟨q, rel, hplace, rfl, hnew⟩
  · exact hnamed p n hold s hs
  · rcases List.mem_append.mp hs with hs | hs
    · obtain ⟨m, hm, -⟩ :=
        follow_arrived (lead_eq_arrived_iff.mp (place_eq_ok_iff.mp hplace)).2.2
      exact hnamed q m hm s hs
    · exact hnew.named s hs

/-- **Copying one thing that is met below the hooks directory** changes nothing but its place. -/
theorem keeps_copyHook (hhome : base.CanHouse home.path) {hooks path : Path} {names : List String}
    (hpath : path.components = hooks.components ++ names.map .name)
    (hnames : ∀ s ∈ names, NameAllowed s) (kind : Kind) :
    Keeps (GrowsBelow HookPlace home.path base) (copyHook hooks home.hooksTarget path kind) := by
  have hcont : (home.hooksTarget.join ⟨Text.joined "/" names⟩).Continues home.path
      ("init.groovy.d" :: names) :=
    (Path.continues_child hhome.text_ne_empty nameAllowed_hooks.isName).join
      (Path.text_child_ne_empty nameAllowed_hooks.isName) fun s hs => (hnames s hs).isName
  have hlink : ∀ rel target, ¬ HookPlace rel (.link target) := fun rel target h => h.noLink rfl
  rw [copyHook, Path.below?_of_components hpath]
  dsimp only
  split_ifs
  · refine (keeps_createDirs_below hhome hcont fun rel hrel hne => ?_).mapFailure _
    exact ⟨hookPlace hnames hrel hne (by simp [Node.kind]), hlink rel⟩
  · refine (Keeps.change fun fs fs' h hcopy => ?_).mapFailure _
    refine h.copy hhome hcont (by simp) (fun bytes time => ?_) (fun rel _ _ => hlink rel) hcopy
    exact hookPlace hnames (List.prefix_refl _) (by simp) (by simp [Node.kind])

/-- **Copying all that a walk meets** changes nothing but the hooks of the home. What a directory
holds is listed before it is copied, while all names are still allowed. -/
theorem keeps_copyHooksFrom (hnamed : base.Named) (hhome : base.CanHouse home.path) {hooks : Path}
    (depth : Nat) {trail : Walk.Trail} {path : Path} {kind : Kind} {names : List String}
    (hpath : path.components = hooks.components ++ names.map .name)
    (hnames : ∀ s ∈ names, NameAllowed s) :
    Keeps (GrowsBelow HookPlace home.path base)
      (copyHooksFrom hooks home.hooksTarget depth trail path kind) := by
  induction depth generalizing trail path kind names with
  | zero => exact .pure _
  | succ depth ih =>
      rw [copyHooksFrom]
      refine .bind_get fun fs hfs => ?_
      split
      · exact Keeps.throw _ fs hfs
      · refine Keeps.bind (keeps_copyHook hhome hpath hnames _) (fun _ => ?_) fs hfs
        cases hlist : fs.list path with
        | error e => exact .throw _
        | ok entries =>
            obtain ⟨hcheck, hentries⟩ := list_eq_ok hlist
            refine .forM fun e he => ?_
            obtain ⟨q, n, -, hn, -⟩ := hentries e he
            have hs : NameAllowed e.1 :=
              named_of_growsBelow hnamed hfs _ n hn e.1 (by simp)
            have hlonger : (path.child e.1).components =
                hooks.components ++ (names ++ [e.1]).map .name := by
              rw [Path.components_child hs.isName (text_ne_empty_of_checkPath hcheck), hpath,
                List.map_append, List.append_assoc]
              rfl
            refine ih hlonger fun s hs' => ?_
            rcases List.mem_append.mp hs' with hs' | hs'
            · exact hnames s hs'
            · rwa [List.mem_singleton.mp hs']
      · exact keeps_copyHook hhome hpath hnames _ fs hfs

/-- **Installing the hooks of a run** adds to the home nothing but hooks. -/
theorem keeps_installHooks (hnamed : base.Named) (hhome : base.CanHouse home.path) (hooks : Path) :
    Keeps (fun w : World => GrowsBelow HookPlace home.path base w.files)
      (home.installHooks hooks) := by
  rw [installHooks]
  refine Keeps.files.bind fun fs => ?_
  dsimp only
  split_ifs
  · exact .throw _
  cases fs.list hooks with
  | error e => exact .throw _
  | ok entries =>
      cases entries with
      | nil => exact .throw _
      | cons e entries =>
          cases fs.linkStat hooks with
          | error e => exact .throw _
          | ok node =>
              have hroot : hooks.components = hooks.components ++ ([] : List String).map .name :=
                (List.append_nil _).symm
              refine Keeps.bind (Keeps.onFiles ?_) fun _ => .pure _
              exact keeps_copyHooksFrom hnamed hhome _ hroot (by simp)

end RunHome

namespace PluginList

/-! ### Modules -/

/-- What furnishing adds to a home: something in the directory of the hooks or in that of the
modules, and links in the latter only. -/
structure Furniture (rel : Place) (n : Node) : Prop where
  /-- It is one of the two directories, or below it. -/
  below : ∃ s more, rel = s :: more ∧ (s = "init.groovy.d" ∨ s = "plugins")
  /-- Links are those to modules. -/
  link : n.kind = .link → ∃ s, rel = ["plugins", s]

/-- The place of a hook belongs to the furniture. -/
theorem furniture_of_hookPlace {rel : Place} {n : Node} (h : RunHome.HookPlace rel n) :
    Furniture rel n where
  below := by
    obtain ⟨more, rfl⟩ := h.below
    exact ⟨_, more, rfl, .inl rfl⟩
  link hlink := absurd hlink h.noLink

/-- The directory for extension modules has a name. -/
theorem isName_plugins : Location.IsName "plugins" := by decide

/-- The name of a link to a module is one if the name of the module has no slash. -/
theorem isName_link {name : String} (h : '/' ∉ name.toList) : Location.IsName (name ++ ".jpi") :=
  Location.isName_append h (by decide) (by decide)

/-- The name on a line of a plugin list has no slash. -/
theorem noSlash_of_entry {line : List Char} {e : PluginEntry} (h : entry? line = some e) :
    '/' ∉ e.name.toList := by
  unfold entry? at h
  split at h
  split_ifs at h with hbad
  cases h
  intro hslash
  rw [String.toList_ofList] at hslash
  simp only [Bool.or_eq_true, List.any_eq_true, not_or, not_exists, not_and] at hbad
  exact (hbad.2 '/' hslash).1 (by decide)

/-- The modules of a list have names without slashes. -/
theorem noSlash_of_readLines {lines : List (List Char)} {n : Nat} {entries : List PluginEntry}
    (h : readLines n lines = .ok entries) : ∀ e ∈ entries, '/' ∉ e.name.toList := by
  induction lines generalizing n entries with
  | nil =>
      cases h
      simp
  | cons line lines ih =>
      rw [readLines] at h
      split_ifs at h with hempty
      · exact ih h
      · split at h
        · cases h
        · next e hentry =>
            cases hrest : readLines (n + 1) lines with
            | error found =>
                rw [hrest] at h
                cases h
            | ok rest =>
                rw [hrest] at h
                cases h
                intro e' he'
                rcases List.mem_cons.mp he' with rfl | he'
                · exact noSlash_of_entry hentry
                · exact ih hrest e' he'

/-- So no name of a plugin list has one. -/
theorem noSlash_of_parse {path : Path} {text : String} {entries : List PluginEntry}
    (h : parse path text = .ok entries) : ∀ e ∈ entries, '/' ∉ e.name.toList := by
  rw [parse] at h
  split at h
  · next hlines =>
      cases h
      exact noSlash_of_readLines hlines
  · cases h

variable (hhome : base.CanHouse home.path)
  (hwork : base.WorkDirStands)
include hhome

/-- Making the directory of the modules adds it to the home. -/
theorem keeps_pluginsDir :
    Keeps (GrowsBelow Furniture home.path base) (createDirs (home.path.child "plugins")) := by
  refine keeps_createDirs_below hhome (Path.continues_child hhome.text_ne_empty isName_plugins) ?_
  intro rel hrel hne
  obtain rfl : rel = ["plugins"] := by
    cases rel with
    | nil => exact absurd rfl hne
    | cons s rel => simpa using hrel
  refine ⟨⟨⟨_, [], rfl, .inr rfl⟩, by simp [Node.kind]⟩, fun target h => ?_⟩
  obtain ⟨s, hs⟩ := h.link rfl
  cases hs

include hwork

/-- **Linking one module** changes nothing in the home but that link. -/
theorem keeps_place (cacheDir : Path) {e : PluginEntry} (he : '/' ∉ e.name.toList) :
    Keeps (GrowsBelow Furniture home.path base) (place cacheDir (home.path.child "plugins") e) := by
  have hname := isName_link he
  have hcont : ((home.path.child "plugins").child (e.name ++ ".jpi")).Continues home.path
      ["plugins", e.name ++ ".jpi"] :=
    (Path.continues_child hhome.text_ne_empty isName_plugins).child
      (Path.text_child_ne_empty isName_plugins) hname
  have hlink : ∀ rel, rel <+: ["plugins", e.name ++ ".jpi"] → rel ≠ [] →
      rel ≠ ["plugins", e.name ++ ".jpi"] → ∀ target, ¬ Furniture rel (.link target) := by
    rintro rel hrel - hshort target h
    obtain ⟨s, rfl⟩ := h.link rfl
    exact hshort (hrel.eq_of_length rfl)
  rw [place]
  refine .bind_get fun fs hfs => ?_
  cases fs.absolute (e.cachePath cacheDir) with
  | error fault => exact Keeps.throw _ fs hfs
  | ok cached =>
      have hcreate : Keeps (GrowsBelow Furniture home.path base)
          (Action.mapFailure Failure.io (Action.change fun fs =>
            fs.createLink cached ((home.path.child "plugins").child (e.name ++ ".jpi")))) := by
        refine (Keeps.change fun fs fs' h hlinked => ?_).mapFailure _
        refine h.createLink hhome hcont (by simp) ?_ hlink hlinked
        exact ⟨⟨_, _, rfl, .inr rfl⟩, fun _ => ⟨_, rfl⟩⟩
      have hremove : Keeps (GrowsBelow Furniture home.path base)
          (Action.mapFailure Failure.io (Action.change fun fs =>
            fs.removeFile ((home.path.child "plugins").child (e.name ++ ".jpi")))) := by
        refine (Keeps.change fun fs fs' h hremoved => ?_).mapFailure _
        exact h.removeFile hhome hcont (by simp) (Path.endsInSlash_child hname) hwork hlink hremoved
      dsimp only
      split
      · exact Keeps.throw _ fs hfs
      · split
        · exact (hremove.bind fun _ => hcreate) fs hfs
        · exact hcreate fs hfs

/-- Linking modules one after another adds nothing but links to them. -/
theorem keeps_placeAll (cacheDir : Path) {entries : List PluginEntry}
    (h : ∀ e ∈ entries, '/' ∉ e.name.toList) :
    Keeps (GrowsBelow Furniture home.path base)
      (placeAll cacheDir (home.path.child "plugins") entries) := by
  induction entries with
  | nil => exact .pure _
  | cons e entries ih =>
      rw [placeAll]
      exact (keeps_place hhome hwork cacheDir (h e List.mem_cons_self)).bind
        fun _ => ih fun e he => h e (List.mem_cons_of_mem _ he)

/-- **Preparing the modules of a run** adds to the home nothing but their directory and links in
it. -/
theorem keeps_prepare (plugins : Path) (cacheDir? : Option Path) :
    Keeps (fun w : World => GrowsBelow Furniture home.path base w.files)
      (prepare plugins home cacheDir?) := by
  rw [prepare]
  refine Keeps.files.bind fun fs => ?_
  dsimp only
  split
  · exact .pure _
  split
  · exact .throw _
  cases fs.readText plugins with
  | error e => exact .throw _
  | ok text =>
      refine .bind_ofExcept fun entries hparse => ?_
      cases cacheDir? with
      | none => exact .throw _
      | some cacheDir =>
          simp only [RunHome.pluginsDir, bind_assoc, pure_bind]
          refine ((keeps_pluginsDir hhome).mapFailure _).onFiles.bind fun _ => ?_
          refine (keeps_placeAll hhome hwork cacheDir ?_).onFiles.bind fun _ => .pure _
          exact noSlash_of_parse hparse

end PluginList

/-- **What furnishing a home adds** lies in the directories of the hooks and the modules, whether
furnishing fails or not. Hooks come first, as all names are allowed as long as nothing else was
added. -/
theorem Launch.furnish_growsBelow {l : Launch} {w : World} (hnamed : w.files.Named)
    (hwork : w.files.WorkDirStands)
    (hhome : w.files.CanHouse home.path) :
    GrowsBelow PluginList.Furniture home.path w.files (outcome (furnish l home) w).2.files := by
  rw [furnish]
  have hprepare := PluginList.keeps_prepare hhome hwork l.settings.plugins l.settings.cacheDir?
  cases l.settings.initHooks? with
  | none => exact hprepare w (.refl _ _ _)
  | some hooks =>
      have hhooks := RunHome.keeps_installHooks hnamed hhome hooks w (.refl _ _ _)
      rw [outcome_bind]
      rcases hresult : outcome (home.installHooks hooks) w with ⟨result, w'⟩
      rw [hresult] at hhooks
      have hgrown : GrowsBelow PluginList.Furniture home.path w.files w'.files :=
        hhooks.mono fun _ _ => PluginList.furniture_of_hookPlace
      cases result with
      | error e => exact hgrown
      | ok target => exact hprepare w' hgrown

end RealmBoot
