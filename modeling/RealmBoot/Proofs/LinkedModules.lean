import RealmBoot.Proofs.DirectoryOfLinks
import RealmBoot.Proofs.HomeCourse
import RealmBoot.Proofs.Furnishing
import RealmBoot.Proofs.LocationReading
import RealmBoot.Proofs.NormalForm
import RealmBoot.Proofs.PluginLines
import RealmBoot.Proofs.ReceivingDirectory

/-!
# Linked Modules

The modules a list names are linked into an empty directory of the run home, one after another, each
in the stead of an earlier one of its name. What is in the directory in the end can be told from the
list: for each name one link, to the module that was named last. An archive of the cache may be a
link into this directory, so that a link need not lead to a file any more once others were made.

## Main results

* `PluginList.Linked.linkPut`, `PluginList.Linking.concat`: what linking one module more does to the
  files, and what it keeps of the directory.
* `PluginList.linking_of_placeAll`: what linking the modules of a list comes to.
* `PluginList.Linking.stat`: where the links lead.
* `PluginList.listed_and_linked`: what is read of a list, and what preparing it leaves.
* `PluginList.not_linked_to_files`: some links do not lead to files.
-/

namespace RealmBoot

open FileSystem

namespace FileSystem

variable {fs : FileSystem} {dir p : Path} {P : Place} {s : String} {lead : Lead}

/-- A name in a directory leads to its place there, if anywhere, as long as a link under it is
kept. Then it is not too long. -/
theorem Receives.kept_child (h : fs.Receives dir P) (hs : Location.IsName s)
    (hfollow : fs.follow .kept linkLimit (start fs.workLocation.names (dir.child s))
      (dir.child s).segments = .ok lead) :
    (lead = .arrived (P ++ [s]) ∨ lead = .vacant (P ++ [s])) ∧ s.utf8ByteSize ≤ nameLimit := by
  obtain ⟨left, hchild⟩ := h.follow_child hs
  have hkept := hchild .kept
  rw [steps, Path.endsInSlash_child hs] at hkept
  have hname := hkept.symm.trans hfollow
  refine ⟨follow_names (by simpa using hs) ?_ hname, fits_of_follow hs hname⟩
  intro rel hrel hne hlast
  obtain rfl : rel = [s] := by
    cases rel with
    | nil => exact absurd rfl hne
    | cons t rel => simpa using hrel
  exact absurd rfl (hlast rfl)

end FileSystem

namespace PluginList

variable {es : List PluginEntry} {e : PluginEntry} {name : String} {cacheDir dir : Path}
  {made fs fs' : FileSystem} {P : Place}

/-! ### The last module of a name -/

/-- The last module in a list that has a name. -/
def last? (es : List PluginEntry) (name : String) : Option PluginEntry :=
  es.reverse.find? (·.name = name)

/-- A further module is the last one of its name. -/
theorem last?_concat (es : List PluginEntry) (e : PluginEntry) (name : String) :
    last? (es ++ [e]) name = if e.name = name then some e else last? es name := by
  rw [last?, List.reverse_append, List.reverse_singleton, List.singleton_append, List.find?_cons]
  by_cases h : e.name = name
  · simp [h]
  · simp [h, last?]

/-- The name of each module is that of a last one. -/
theorem exists_last? (h : e ∈ es) : ∃ e', last? es e.name = some e' := by
  rw [← Option.isSome_iff_exists, last?, List.find?_isSome]
  exact ⟨e, List.mem_reverse.mpr h, by simp⟩

/-- Links with the same name are those of one name. -/
theorem eq_of_link_eq {other : String} (h : name ++ ".jpi" = other ++ ".jpi") : name = other := by
  have hchars := congrArg String.toList h
  rw [String.toList_append, String.toList_append] at hchars
  exact String.toList_inj.mp (List.append_cancel_right hchars)

/-! ### Linking one module -/

/-- Linking a module succeeds in two steps, the first of which is left out if nothing stands where
the link will be: an earlier link is removed, and a link is made. -/
theorem place_spec (h : outcome (place cacheDir dir e) fs = (.ok (), fs')) :
    ∃ cached fs₁, fs.absolute (e.cachePath cacheDir) = .ok cached ∧ fs.isFile cached = true ∧
      (fs₁ = fs ∨ fs.removeFile (dir.child (e.name ++ ".jpi")) = .ok fs₁) ∧
      fs₁.createLink cached (dir.child (e.name ++ ".jpi")) = .ok fs' := by
  rw [PluginList.place, outcome_bind_of_ok (outcome_get fs)] at h
  cases habsolute : fs.absolute (e.cachePath cacheDir) with
  | error fault =>
      rw [habsolute] at h
      cases h
  | ok cached =>
      rw [habsolute] at h
      dsimp only at h
      split at h
      · cases h
      · next hfile =>
          split at h
          · obtain ⟨⟨⟩, fs₁, hremove, hcreate⟩ := outcome_bind_eq_ok_iff.mp h
            exact ⟨cached, fs₁, rfl, by simpa using hfile,
              .inr (outcome_change_eq_ok_iff.mp (outcome_mapFailure_eq_ok_iff.mp hremove)),
              outcome_change_eq_ok_iff.mp (outcome_mapFailure_eq_ok_iff.mp hcreate)⟩
          · exact ⟨cached, fs, rfl, by simpa using hfile, .inl rfl,
              outcome_change_eq_ok_iff.mp (outcome_mapFailure_eq_ok_iff.mp h)⟩

/-! ### What the directory holds -/

/-- The modules of a list were linked into the directory at a place, and nothing else has changed
that is not at this place or below it. -/
structure Linked (base : FileSystem) (cacheDir : Path) (P : Place) (es : List PluginEntry)
    (fs : FileSystem) : Prop where
  /-- Relative paths start where they did. -/
  workDir : fs.workDir? = base.workDir?
  /-- A directory stands there. -/
  directory : fs.node? P = some .directory
  /-- Elsewhere all is as it was. -/
  elsewhere : ∀ p, ¬ P <+: p → fs.node? p = base.node? p
  /-- For each name there is a link with the absolute path of the module that was named last. -/
  links : ∀ name e, last? es name = some e →
    ∃ cached, base.absolute (e.cachePath cacheDir) = .ok cached ∧
      fs.node? (P ++ [name ++ ".jpi"]) = some (.link cached)
  /-- There is nothing else in the directory. -/
  only : ∀ rel n, rel ≠ [] → fs.node? (P ++ rel) = some n →
    ∃ name e, last? es name = some e ∧ rel = [name ++ ".jpi"]

/-- The link to a module can be looked up: neither its path nor its name is too long. -/
structure Checked (dir : Path) (e : PluginEntry) : Prop where
  /-- The path can be followed. -/
  path : checkPath (dir.child (e.name ++ ".jpi")) = .ok ()
  /-- The name fits. -/
  fits : (e.name ++ ".jpi").utf8ByteSize ≤ nameLimit

/-- What holds after some modules were linked into a directory that was empty at first. -/
structure Linking (made : FileSystem) (cacheDir dir : Path) (P : Place) (es : List PluginEntry)
    (fs : FileSystem) : Prop extends Linked made cacheDir P es fs where
  /-- The links lead to files or to one another. -/
  reach : fs.LinksReach P
  /-- The links can be looked up. -/
  checked : ∀ e ∈ es, Checked dir e

/-- A link was put at a place, and nothing else was changed. -/
structure LinkPut (fs : FileSystem) (q : Place) (target : Path) (fs' : FileSystem) : Prop where
  /-- Relative paths start where they did. -/
  workDir : fs'.workDir? = fs.workDir?
  /-- The link stands there. -/
  link : fs'.node? q = some (.link target)
  /-- Nothing stands below it. -/
  below : ∀ rel, rel ≠ [] → fs'.node? (q ++ rel) = none
  /-- Elsewhere all is as it was. -/
  elsewhere : ∀ p, ¬ q <+: p → fs'.node? p = fs.node? p

/-- Other links of the directory are as they were. -/
theorem LinkPut.other {s t : String} {target : Path} (h : LinkPut fs (P ++ [s]) target fs')
    (hst : s ≠ t) : fs'.node? (P ++ [t]) = fs.node? (P ++ [t]) := by
  refine h.elsewhere _ fun hbelow => ?_
  have hsame := List.append_cancel_left (hbelow.eq_of_length (by simp))
  exact hst (List.cons.inj hsame).1

/-- The absolute form of a path depends on nothing but the working directory. -/
theorem absolute_congr (h : fs'.workDir? = fs.workDir?) (p : Path) :
    fs'.absolute p = fs.absolute p := by
  rw [FileSystem.absolute, FileSystem.absolute, isAdrift, isAdrift, workLocation, workLocation, h]

/-- What stands in the directory is a link. -/
theorem Linked.exists_link (h : Linked made cacheDir P es fs) {rel : Place} {n : Node}
    (hrel : rel ≠ []) (hn : fs.node? (P ++ rel) = some n) :
    ∃ s target, rel = [s] ∧ n = .link target := by
  obtain ⟨name, e, hlast, rfl⟩ := h.only rel n hrel hn
  obtain ⟨cached, -, hlink⟩ := h.links name e hlast
  rw [hlink] at hn
  cases hn
  exact ⟨_, cached, rfl, rfl⟩

section Empty

variable (hempty : made.EmptyAt dir P)
include hempty

/-- The path of a directory that can be prepared is not empty. -/
theorem text_ne_of_emptyAt : dir.text ≠ "" :=
  text_ne_empty_of_checkPath (lead_eq_arrived_iff.mp (place_eq_ok_iff.mp hempty.place)).1

/-- Names behind the path of the directory are looked up in it. -/
theorem receives_of_emptyAt : made.Receives dir P where
  place := by
    rw [if_neg (text_ne_of_emptyAt hempty)]
    exact hempty.place
  directory := hempty.directory

/-- All that was there is there if modules were linked into an empty directory. -/
theorem Linked.grows (h : Linked made cacheDir P es fs) : Grows (fun _ => False) made fs where
  workDir := h.workDir
  keeps {p n} hn := by
    by_cases hp : P <+: p
    · obtain ⟨rel, rfl⟩ := hp
      cases rel with
      | nil =>
          rw [List.append_nil, hempty.directory] at hn
          cases hn
          exact .inl (by rw [List.append_nil, h.directory])
      | cons s rel =>
          rw [hempty.empty (s :: rel) (by simp)] at hn
          cases hn
    · exact .inl (by rw [h.elsewhere p hp, hn])

/-- The directory is still there for names behind its path. -/
theorem Linked.receives (h : Linked made cacheDir P es fs) : fs.Receives dir P :=
  (receives_of_emptyAt hempty).grows (h.grows hempty)

/-- All of that is there, too, when whatever stands under one name was removed. -/
theorem Linked.grows_cleared (h : Linked made cacheDir P es fs) {fs₁ : FileSystem} {s : String}
    (hwork₁ : fs₁.workDir? = fs.workDir?)
    (hrest : ∀ p, ¬ P ++ [s] <+: p → fs₁.node? p = fs.node? p) :
    Grows (fun _ => False) made fs₁ := by
  refine ⟨hwork₁.trans h.workDir, fun {p n} hn => .inl ?_⟩
  rw [hrest p]
  · exact ((h.grows hempty).keeps hn).resolve_right fun hw => hw.1
  · rintro ⟨rest, rfl⟩
    rw [List.append_assoc, hempty.empty _ (by simp)] at hn
    cases hn

variable (hwork : made.WorkDirStands)
include hwork

/-- If a link has to be removed first, nothing else is removed. -/
theorem Linked.cleared (h : Linked made cacheDir P es fs) {fs₁ : FileSystem} {s : String}
    (hs : Location.IsName s) (hfs₁ : fs₁ = fs ∨ fs.removeFile (dir.child s) = .ok fs₁) :
    fs₁.workDir? = fs.workDir? ∧ ∀ p, ¬ P ++ [s] <+: p → fs₁.node? p = fs.node? p := by
  rcases hfs₁ with rfl | hremove
  · exact ⟨rfl, fun _ _ => rfl⟩
  · obtain ⟨r, rfl, hlead⟩ := removeFile_spec hremove
    obtain ⟨-, -, hfollow⟩ := lead_eq_arrived_iff.mp hlead
    rw [steps, Path.endsInSlash_child hs] at hfollow
    obtain rfl : r = P ++ [s] := by simpa using ((h.receives hempty).kept_child hs hfollow).1
    refine ⟨workDir?_remove fun d hd => ?_, fun p hp => ?_⟩
    · -- The working directory stood before the directory of the links held anything.
      rintro ⟨rest, rfl⟩
      have hthere := hwork _ (h.workDir.symm.trans hd)
      rw [List.append_assoc, hempty.empty _ (by simp)] at hthere
      cases hthere
    · rw [node?_remove (by simp), if_neg hp]

/-- What linking one module does. -/
theorem Linked.linkPut (h : Linked made cacheDir P es fs) (he : '/' ∉ e.name.toList)
    (hplace : outcome (place cacheDir dir e) fs = (.ok (), fs')) :
    ∃ cached, made.absolute (e.cachePath cacheDir) = .ok cached ∧ fs.isFile cached = true ∧
      Checked dir e ∧ LinkPut fs (P ++ [e.name ++ ".jpi"]) cached fs' := by
  obtain ⟨cached, fs₁, habsolute, hfile, hfs₁, hcreate⟩ := place_spec hplace
  have hs := isName_link he
  obtain ⟨hwork₁, hrest⟩ := h.cleared hempty hwork hs hfs₁
  obtain ⟨hcheck, -, r, rfl, hvacant⟩ := createLink_spec hcreate
  have hreceives := (receives_of_emptyAt hempty).grows (h.grows_cleared hempty hwork₁ hrest)
  obtain ⟨hlead, hfits⟩ := hreceives.kept_child hs hvacant
  obtain rfl : r = P ++ [e.name ++ ".jpi"] := by simpa using hlead
  have hput : ∀ p, (fs₁.put (P ++ [e.name ++ ".jpi"]) (.link cached)).node? p =
      if P ++ [e.name ++ ".jpi"] <+: p then
        if p = P ++ [e.name ++ ".jpi"] then some (.link cached) else none
      else fs₁.node? p :=
    fun p => node?_put (by simp) (follow_vacant hvacant).2.2
  refine ⟨cached, absolute_congr h.workDir _ ▸ habsolute, hfile, ⟨hcheck, hfits⟩, hwork₁, ?_, ?_,
    ?_⟩
  · rw [hput, if_pos (List.prefix_refl _), if_pos rfl]
  · intro rel hrel
    rw [hput, if_pos (List.prefix_append _ _), if_neg (by simpa using hrel)]
  · intro p hp
    rw [hput, if_neg hp, hrest p hp]

end Empty

section Put

variable {cached : Path} (hput : LinkPut fs (P ++ [e.name ++ ".jpi"]) cached fs')
  (habsolute : made.absolute (e.cachePath cacheDir) = .ok cached)
include hput

/-- A link put into the directory is all that changes there. -/
theorem Linked.relinks (h : Linked made cacheDir P es fs) : Relinks P fs fs' where
  keeps {p n} hn := by
    by_cases hp : P ++ [e.name ++ ".jpi"] <+: p
    · obtain ⟨rest, rfl⟩ := hp
      rw [List.append_assoc] at hn
      obtain ⟨s, target, hrel, rfl⟩ := h.exists_link (by simp) hn
      obtain rfl : rest = [] := by simpa using congrArg List.length hrel
      rw [List.append_nil]
      exact .inr ⟨⟨_, rfl⟩, rfl, cached, hput.link⟩
    · exact .inl (by rw [hput.elsewhere p hp, hn])

include habsolute

/-- A further module is linked. -/
theorem Linked.concat (h : Linked made cacheDir P es fs) :
    Linked made cacheDir P (es ++ [e]) fs' where
  workDir := hput.workDir.trans h.workDir
  directory := by
    rw [hput.elsewhere, h.directory]
    rintro ⟨rest, hrest⟩
    simp at hrest
  elsewhere p hp := by
    rw [hput.elsewhere, h.elsewhere p hp]
    exact fun hbelow => hp ((List.prefix_append _ _).trans hbelow)
  links name e' hlast := by
    rw [last?_concat] at hlast
    split_ifs at hlast with hname
    · obtain rfl := hname
      obtain rfl := Option.some.inj hlast
      exact ⟨cached, habsolute, hput.link⟩
    · obtain ⟨cached', habsolute', hlink⟩ := h.links name e' hlast
      exact ⟨cached', habsolute', (hput.other (hname ∘ eq_of_link_eq)).trans hlink⟩
  only rel n hrel hn := by
    by_cases hp : P ++ [e.name ++ ".jpi"] <+: P ++ rel
    · obtain ⟨rest, hrest⟩ := hp
      rw [List.append_assoc] at hrest
      obtain rfl := List.append_cancel_left hrest
      have hend : rest = [] := by
        by_contra hmore
        rw [← List.append_assoc, hput.below rest hmore] at hn
        cases hn
      exact ⟨e.name, e, by rw [last?_concat, if_pos rfl], by rw [hend, List.append_nil]⟩
    · rw [hput.elsewhere _ hp] at hn
      obtain ⟨name, e', hlast, rfl⟩ := h.only rel n hrel hn
      by_cases hname : e.name = name
      · exact ⟨name, e, by rw [last?_concat, if_pos hname], rfl⟩
      · exact ⟨name, e', by rw [last?_concat, if_neg hname, hlast], rfl⟩

/-- **Linking one module more** keeps what holds of the directory. -/
theorem Linking.concat (h : Linking made cacheDir dir P es fs) (hfile : fs.isFile cached = true)
    (hcheck : Checked dir e) :
    Linking made cacheDir dir P (es ++ [e]) fs' where
  toLinked := h.toLinked.concat hput habsolute
  reach s target hlink := by
    have hrelinks := h.relinks hput
    by_cases hs : s = e.name ++ ".jpi"
    · subst hs
      rw [hput.link] at hlink
      cases hlink
      obtain ⟨q, bytes, time, hplaced, hnode⟩ := isFile_iff.mp hfile
      obtain ⟨-, -, hfollow⟩ := lead_eq_arrived_iff.mp (place_eq_ok_iff.mp hplaced)
      have hroot := isAbsolute_of_absolute habsolute
      rw [start, if_pos hroot] at hfollow
      exact ⟨hroot, (reaches_of_follow h.reach hfollow hnode).relinks hrelinks⟩
    · rw [hput.other (Ne.symm hs)] at hlink
      obtain ⟨hroot, hreaches⟩ := h.reach s target hlink
      exact ⟨hroot, hreaches.relinks hrelinks⟩
  checked e' he' := by
    rcases List.mem_append.mp he' with he' | he'
    · exact h.checked e' he'
    · rwa [List.mem_singleton.mp he']

end Put

/-! ### Linking a list of modules -/

/-- **What linking the modules of a list into an empty directory comes to.** -/
theorem linking_of_placeAll (hempty : made.EmptyAt dir P) (hwork : made.WorkDirStands)
    {more : List PluginEntry} (h : Linking made cacheDir dir P es fs)
    (hnames : ∀ e ∈ more, '/' ∉ e.name.toList)
    (hplace : outcome (placeAll cacheDir dir more) fs = (.ok (), fs')) :
    Linking made cacheDir dir P (es ++ more) fs' := by
  induction more generalizing es fs with
  | nil =>
      cases hplace
      rwa [List.append_nil]
  | cons e more ih =>
      rw [placeAll] at hplace
      obtain ⟨⟨⟩, fs₁, hfirst, hrest⟩ := outcome_bind_eq_ok_iff.mp hplace
      obtain ⟨cached, habsolute, hfile, hcheck, hput⟩ :=
        h.linkPut hempty hwork (hnames e List.mem_cons_self) hfirst
      have hnext := ih (h.concat hput habsolute hfile hcheck)
        (fun e he => hnames e (List.mem_cons_of_mem _ he)) hrest
      rwa [List.append_assoc] at hnext

/-- Nothing was linked into a directory that is empty. -/
theorem linking_nil (hempty : made.EmptyAt dir P) : Linking made cacheDir dir P [] made where
  workDir := rfl
  directory := hempty.directory
  elsewhere _ _ := rfl
  links _ _ h := by cases h
  only rel n hrel hn := by
    rw [hempty.empty rel hrel] at hn
    cases hn
  reach s target hlink := by
    rw [hempty.empty [s] (by simp)] at hlink
    cases hlink
  checked _ h := by cases h

/-- **Each link leads to a file, unless the way there takes too many links.** -/
theorem Linking.stat (hempty : made.EmptyAt dir P) (h : Linking made cacheDir dir P es fs)
    (hname : '/' ∉ e.name.toList) (he : e ∈ es) :
    fs.isFile (dir.child (e.name ++ ".jpi")) = true ∨
      fs.stat (dir.child (e.name ++ ".jpi")) = .error .tooManyLinks := by
  have hs := isName_link hname
  have hreceives := h.receives hempty
  obtain ⟨e', hlast⟩ := exists_last? he
  obtain ⟨cached, -, hlink⟩ := h.links e.name e' hlast
  obtain ⟨left, hchild⟩ := hreceives.follow_child hs
  have hreaches : fs.Reaches P P [e.name ++ ".jpi"] := by
    have hcross : fs.Stretches .followed P.reverse [e.name ++ ".jpi"]
        (.crossing P.reverse.reverse cached []) :=
      .crossing ⟨hs.2.1, hs.2.2.1, (h.checked e he).fits⟩ (by simpa using hlink) (by simp)
    rw [List.reverse_reverse] at hcross
    exact .link h.directory hcross
  have hlead : fs.lead .followed (dir.child (e.name ++ ".jpi")) =
      fs.follow .followed left P [e.name ++ ".jpi"] := by
    have hplace := hreceives.place
    rw [if_neg (text_ne_of_emptyAt hempty), place_eq_ok_iff] at hplace
    rw [FileSystem.lead, (h.checked e he).path, pursue, isAdrift_child hplace hs, ← hchild]
    rfl
  rcases hreaches.follow h.reach left with hmany | ⟨f, bytes, time, hfile, hnode⟩
  · refine .inr ?_
    rw [FileSystem.stat, hlead, hmany]
    rfl
  · exact .inl (isFile_iff.mpr ⟨f, bytes, time, place_eq_ok_iff.mpr (hlead.trans hfile), hnode⟩)

/-! ### The directory of the modules -/

/-- The directory of the modules is made, and not in a working directory that is gone. -/
theorem arrived_of_createDirs {base : FileSystem} {home : Path}
    (hcont : (home.child "plugins").Continues home ["plugins"])
    (h : outcome (createDirs (home.child "plugins")) base = (.ok (), made)) :
    ∃ r, made.lead .followed (home.child "plugins") = .ok (.arrived r) ∧
      made.node? r = some .directory := by
  have hmade := (isDirectory_of_createDirs h).resolve_left (Path.text_child_ne_empty isName_plugins)
  refine (isDirectory_iff.mp hmade).resolve_left fun hgone => ?_
  rw [FileSystem.lead] at hgone
  obtain ⟨⟨⟩, -, hgone⟩ := except_bind_eq_ok_iff.mp hgone
  rw [pursue, steps, Path.endsInSlash_child isName_plugins, if_neg Bool.false_ne_true,
    hcont.segments] at hgone
  split_ifs at hgone with hnot hdots
  · exact follow_ne_adrift _ _ _ _ hgone
  · simp at hdots

/-- **The directory of the modules is made empty,** and nothing else is made. -/
theorem emptyAt_of_createDirs {base : FileSystem} {home : Path} (hhome : base.CanHouse home)
    (h : outcome (createDirs (home.child "plugins")) base = (.ok (), made)) :
    ∃ q, base.place home = .ok q ∧ made.EmptyAt (home.child "plugins") (q ++ ["plugins"]) ∧
      made.workDir? = base.workDir? ∧
      ∀ p, ¬ q ++ ["plugins"] <+: p → made.node? p = base.node? p := by
  have hcont := Path.continues_child hhome.text_ne_empty isName_plugins
  have hgrown : GrowsBelow (fun rel n => rel = ["plugins"] ∧ n = .directory) home base made := by
    suffices hkeeps : Keeps (GrowsBelow (fun rel n => rel = ["plugins"] ∧ n = .directory) home base)
        (createDirs (home.child "plugins")) by
      simpa only [h] using hkeeps base (.refl _ _ _)
    refine keeps_createDirs_below hhome hcont fun rel hrel hne =>
      ⟨⟨?_, rfl⟩, fun _ hlink => nomatch hlink.2⟩
    cases rel with
    | nil => exact absurd rfl hne
    | cons s rel => simpa using hrel
  obtain ⟨r, hlead, hr⟩ := arrived_of_createDirs hcont h
  obtain ⟨hcheck, hadrift, hfollow⟩ := lead_eq_arrived_iff.mp hlead
  obtain ⟨q, hempty⟩ := hgrown.exists_emptyAt hhome hcont.absolute hcheck hadrift
  have hnoLink : made.NoLinkOn .followed q ["plugins"] :=
    hgrown.noLinkOn hempty fun _ _ _ _ _ hlink => nomatch hlink.2
  rw [steps, Path.endsInSlash_child isName_plugins] at hfollow
  obtain rfl : r = q ++ ["plugins"] := by
    simpa using hgrown.follow_continues hempty hcont (by simp) hnoLink hfollow
  refine ⟨q, hempty.place, ⟨place_eq_ok_iff.mpr hlead, hr, fun rel hrel => ?_⟩,
    hgrown.grows.workDir, fun p hp => ?_⟩
  · cases hn : made.node? (q ++ ["plugins"] ++ rel) with
    | none => rfl
    | some n =>
        rw [List.append_assoc] at hn
        have hallowed := hgrown.allowed_of_node? hempty (by simp) hn
        exact absurd (by simpa using hallowed.1) hrel
  · cases hbase : base.node? p with
    | some n => exact (hgrown.grows.keeps hbase).resolve_right fun hw => hw.1
    | none =>
        cases hn : made.node? p with
        | none => rfl
        | some n =>
            rcases hgrown.added hn with hold | ⟨q', rel, hplace, rfl, rfl, -⟩
            · rw [hbase] at hold
              cases hold
            · rw [hempty.place] at hplace
              cases hplace
              exact absurd (List.prefix_refl _) hp

/-- What preparing the modules of a list goes through if it succeeds. -/
theorem prepare_course {w w' : World} {plugins target : Path} {home : RunHome}
    {cacheDir? : Option Path} (hlist : w.files.isDirectory plugins = false)
    (h : outcome (prepare plugins home cacheDir?) w = (.ok target, w')) :
    ∃ text entries cacheDir made fs, w.files.readText plugins = .ok text ∧
      parse plugins text = .ok entries ∧ cacheDir? = some cacheDir ∧
      target = home.path.child "plugins" ∧
      outcome (createDirs target) w.files = (.ok (), made) ∧
      outcome (placeAll cacheDir target entries) made = (.ok (), fs) ∧
      w' = { w with files := fs } := by
  rw [prepare, outcome_bind_of_ok (outcome_files w), hlist] at h
  simp only [Bool.false_eq_true, if_false] at h
  split at h
  · cases h
  cases htext : w.files.readText plugins with
  | error fault =>
      rw [htext] at h
      cases h
  | ok text =>
      rw [htext] at h
      dsimp only at h
      cases hparse : parse plugins text with
      | error f =>
          rw [hparse] at h
          cases h
      | ok entries =>
          cases cacheDir? with
          | none =>
              rw [hparse] at h
              cases h
          | some cacheDir =>
              simp only [hparse, Effect.ofExcept, pure_bind, RunHome.pluginsDir, bind_assoc] at h
              obtain ⟨⟨⟩, w₁, hcreate, h⟩ := outcome_bind_eq_ok_iff.mp h
              obtain ⟨⟨⟩, w₂, hplace, h⟩ := outcome_bind_eq_ok_iff.mp h
              obtain ⟨made, hmade, rfl⟩ := outcome_onFiles_eq_ok_iff.mp hcreate
              obtain ⟨fs, hlinked, rfl⟩ := outcome_onFiles_eq_ok_iff.mp hplace
              cases h
              exact ⟨text, entries, cacheDir, made, fs, rfl, hparse, rfl, rfl,
                outcome_mapFailure_eq_ok_iff.mp hmade, hlinked, rfl⟩

/-! ### In a fresh home -/

/-- **A plugin list is read and its modules are linked.** A list is read line by line: what is read,
and which line it is refused for, is told from the lines. Once the modules of a list are prepared in
a fresh home, the directory of its modules holds for each name a link with the absolute path of the
module that was named last, and nothing else; nothing else was changed. Each link leads to a file,
unless the way there takes more links than may be followed. -/
theorem listed_and_linked :
    (∀ (path : Path) (text : String),
      (∀ entries, parse path text = .ok entries ↔
        (∀ line ∈ Text.lines text.toList, ¬ AtFault line) ∧
          entries = ((Text.lines text.toList).filter speaks).map named) ∧
      ∀ f, parse path text = .error f ↔
        ∃ before line, FirstOf AtFault (Text.lines text.toList) before line ∧
          f = .pluginList path (before.length + 1) (String.ofList (content line))) ∧
    ∀ (s : Surroundings) (requested? : Option Path) (w₀ w w' : World) (home : RunHome)
      (plugins target : Path) (cacheDir? : Option Path),
      w₀.files.WorkDirStands → outcome (RunHome.prepare s requested?) w₀ = (.ok home, w) →
      w.files.isDirectory plugins = false →
      outcome (prepare plugins home cacheDir?) w = (.ok target, w') →
      ∃ text entries cacheDir q, w.files.readText plugins = .ok text ∧
        parse plugins text = .ok entries ∧ cacheDir? = some cacheDir ∧
        target = home.path.child "plugins" ∧ w.files.place home.path = .ok q ∧
        w'.files.place target = .ok (q ++ ["plugins"]) ∧
        Linked w.files cacheDir (q ++ ["plugins"]) entries w'.files ∧
        ∀ e ∈ entries, w'.files.isFile (target.child (e.name ++ ".jpi")) = true ∨
          w'.files.stat (target.child (e.name ++ ".jpi")) = .error .tooManyLinks := by
  refine ⟨fun path text => ⟨fun entries => parse_eq_ok_iff, fun f => parse_eq_error_iff⟩, ?_⟩
  intro s requested? w₀ w w' home plugins target cacheDir? hwork hhome hlist hprepare
  obtain ⟨hhouse, hstands⟩ := RunHome.canHouse_of_prepare hwork hhome
  obtain ⟨text, entries, cacheDir, made, fs, htext, hparse, rfl, rfl, hmade, hlinked, rfl⟩ :=
    prepare_course hlist hprepare
  obtain ⟨q, hq, hempty, hsame, helsewhere⟩ := emptyAt_of_createDirs hhouse hmade
  have hnames := noSlash_of_parse hparse
  have hgrows : Grows (fun _ => False) _ _ :=
    grows_createDirs (home.path.child "plugins") w.files
  rw [hmade] at hgrows
  have hmadeStands := hstands.grows hgrows
  have hlinking := linking_of_placeAll hempty hmadeStands (linking_nil hempty) hnames hlinked
  rw [List.nil_append] at hlinking
  refine ⟨text, entries, cacheDir, q, htext, hparse, rfl, rfl, hq, ?_, ?_, ?_⟩
  · have hplace := (hlinking.receives hempty).place
    rwa [if_neg (text_ne_of_emptyAt hempty)] at hplace
  · exact { hlinking.toLinked with
      workDir := hlinking.workDir.trans hsame
      elsewhere := fun p hp => (hlinking.elsewhere p hp).trans (helsewhere p hp)
      links := fun name e hlast => by
        obtain ⟨cached, habsolute, hlink⟩ := hlinking.links name e hlast
        exact ⟨cached, absolute_congr hsame _ ▸ habsolute, hlink⟩ }
  · exact fun e he => hlinking.stat hempty (hnames e he) he

/-! ### A module that leads back into the home -/

/-- A list that names a module twice, and a cache in which the second of its archives is a link into
the directory of the modules of a home. -/
def circularFiles : FileSystem :=
  { root := [
      ("cache", .directory [("plugins", .directory [("a", .directory [
        ("a-1.hpi", .file "Short-Name: a\n".toUTF8 (.at 0)),
        ("a-2.hpi", .link ⟨"../../../home/plugins/a.jpi"⟩)])])]),
      ("home", .directory []),
      ("plugins.txt", .file "a:1\na:2 # later\n".toUTF8 (.at 0))] }

/-- The working directory is the root. -/
theorem circularFiles_workDir : circularFiles.WorkDirStands := by
  intro d hd
  cases hd
  decide

/-- The world in which the modules of that list were prepared. -/
def circularWorld : World :=
  (outcome (prepare ⟨"plugins.txt"⟩ ⟨⟨"home"⟩, false⟩ (some ⟨"cache"⟩))
    { files := circularFiles }).2

/-- The empty directory is prepared as it is. -/
theorem prepare_circularFiles :
    outcome (RunHome.prepare default (some ⟨"home"⟩)) { files := circularFiles } =
        (.ok ⟨⟨"home"⟩, false⟩, { files := circularFiles }) ∧
      outcome (prepare ⟨"plugins.txt"⟩ ⟨⟨"home"⟩, false⟩ (some ⟨"cache"⟩))
        { files := circularFiles } = (.ok ⟨"home/plugins"⟩, circularWorld) := by
  refine ⟨?_, outcome_of_result (except_eq_ok_of_toOption (by decide +kernel))⟩
  rcases RunHome.prepare_spec default (some ⟨"home"⟩) { files := circularFiles } with
    ⟨f, hfails⟩ | ⟨dir, hdir, -, hgiven⟩ | ⟨-, -, hnone, -⟩
  · have hprepared : (outcome (RunHome.prepare default (some ⟨"home"⟩))
        { files := circularFiles }).1.toOption.isSome = true := by decide
    rw [hfails] at hprepared
    cases hprepared
  · cases hdir
    exact hgiven
  · cases hnone

/-- The general theorem for that list: the link to the second archive stands in the directory. It
leads to that archive, the archive back to it, and so on. -/
theorem listed_and_linked_circular :
    ∃ text entries q, circularFiles.readText ⟨"plugins.txt"⟩ = .ok text ∧
      parse ⟨"plugins.txt"⟩ text = .ok entries ∧ circularFiles.place ⟨"home"⟩ = .ok q ∧
      Linked circularFiles ⟨"cache"⟩ (q ++ ["plugins"]) entries circularWorld.files ∧
      circularWorld.files.node? ["home", "plugins", "a.jpi"] =
        some (.link ⟨"/cache/plugins/a/a-2.hpi"⟩) := by
  obtain ⟨text, entries, cacheDir, q, htext, hparse, hcache, -, hq, -, hlinked, -⟩ :=
    listed_and_linked.2 default (some ⟨"home"⟩) { files := circularFiles }
      { files := circularFiles } circularWorld ⟨⟨"home"⟩, false⟩ ⟨"plugins.txt"⟩ ⟨"home/plugins"⟩
      (some ⟨"cache"⟩) circularFiles_workDir prepare_circularFiles.1 (by decide)
      prepare_circularFiles.2
  obtain rfl := Option.some.inj hcache
  exact ⟨text, entries, q, htext, hparse, hq, hlinked, by decide +kernel⟩

/-- **Not every link leads to a file.** An archive of the cache that is a link into the directory of
the modules may lead to a file when it is linked, and no more once it was. -/
theorem not_linked_to_files :
    ¬ ∀ (s : Surroundings) (requested? : Option Path) (w₀ w w' : World) (home : RunHome)
        (plugins target : Path) (cacheDir? : Option Path) (text : String)
        (entries : List PluginEntry),
      w₀.files.WorkDirStands → outcome (RunHome.prepare s requested?) w₀ = (.ok home, w) →
      w.files.isDirectory plugins = false →
      outcome (prepare plugins home cacheDir?) w = (.ok target, w') →
      w.files.readText plugins = .ok text → parse plugins text = .ok entries →
      ∀ e ∈ entries, w'.files.isFile (target.child (e.name ++ ".jpi")) = true := by
  intro h
  have hfile := h default (some ⟨"home"⟩) { files := circularFiles } { files := circularFiles }
    circularWorld ⟨⟨"home"⟩, false⟩ ⟨"plugins.txt"⟩ ⟨"home/plugins"⟩ (some ⟨"cache"⟩)
    "a:1\na:2 # later\n" [⟨"a", "1"⟩, ⟨"a", "2"⟩] circularFiles_workDir prepare_circularFiles.1
    (by decide) prepare_circularFiles.2 (except_eq_ok_of_toOption (by decide))
    (except_eq_ok_of_toOption (by decide)) ⟨"a", "2"⟩ (by decide)
  have hnone : circularWorld.files.isFile
      ((⟨"home/plugins"⟩ : Path).child ("a" ++ ".jpi")) = false := by decide +kernel
  rw [hnone] at hfile
  cases hfile

end PluginList

end RealmBoot
