import RealmBoot.Proofs.InstalledFiles

/-!
# Installing Again

After an installation every archive has its time at its target, so that installing again finds all
of them up to date. For that the second installation has to look up what the first one found, which
it does because the archives of the scope read as they did when the first one read them.

## Main results

* `Installation.takeAll_again`: steps that were taken can be taken again, and change nothing.
* `Installation.FirstLookup.answers_again`: the scope answers as it did.
* `Installation.run_again`: installing again succeeds and changes nothing.
-/

namespace RealmBoot

open FileSystem

/-- An archive that is found up to date. -/
def Installed.again (i : Installed) : Installed := { i with upToDate := true }

/-- The report of an installation that finds all archives up to date. -/
def InstallationReport.again (r : InstallationReport) : InstallationReport :=
  { r with batch := r.batch.map (·.again), dependencies := r.dependencies.map (·.again) }

namespace Installation

variable {target : Path} {names : List String} {index frozen : ShortNameIndex}
  {start site site' : Site} {report report' : InstallationReport} {taken : List Step}
  {step : Step} {batch : List Descriptor} {fs made seen : FileSystem} {scope again : Scope}
  {records : List Installed} {p : Placement}

/-! ### Taking steps again -/

/-- A report made again settles the same names. -/
theorem settled_again (name : String) :
    settled names report.again name = settled names report name := by
  simp [settled, InstallationReport.again, Installed.again, Function.comp_def]

/-- What was reported before a step is reported after it. -/
theorem Advances.subset (h : Advances target names report site step report' site') :
    report.batch ++ report.dependencies ⊆ report'.batch ++ report'.dependencies := by
  intro i hi
  rw [List.mem_append] at hi ⊢
  cases h with
  | own => exact hi.imp_left (List.mem_append_left _)
  | settled => exact hi
  | fetched => exact hi.imp_right (List.mem_append_left _)
  | skipped => exact hi

/-- An archive whose target has its time is found up to date. -/
theorem install_again (again : Scope) {i : Installed} {name : String} {source dest : Path}
    {files : FileSystem}
    (hplaced : outcome (install name source dest) site.files = (.ok i, files))
    (hcurrent : sameTime fs i.source i.target = true) :
    outcome (SiteAction.onFiles (install name source dest)) ⟨fs, again⟩ =
      (.ok i.again, ⟨fs, again⟩) := by
  obtain ⟨⟨rfl, rfl, rfl⟩, -⟩ := placed_of_install hplaced
  rw [SiteAction.outcome_onFiles, install_of_sameTime hcurrent]
  rfl

/-- **A step that was taken can be taken again** if all that is reported is up to date and the scope
answers as it did. The files stay as they are. -/
theorem Advances.take_again (h : Advances target names report site step report' site')
    (hindex : ∀ frozen, site'.scope.index? = some frozen → frozen = index)
    (hcurrent : ∀ i ∈ report'.batch ++ report'.dependencies,
      sameTime fs i.source i.target = true)
    (hanswers : step.asks names → again.Answers fs index) :
    ∃ again', outcome (take target names report.again step) ⟨fs, again⟩ =
      (.ok report'.again, ⟨fs, again'⟩) ∧
      (again' = again ∨ again' = { again with index? := some index }) := by
  have hasks : ∀ {d : Dependency} {requiredBy : String},
      ¬ Installation.settled names report d.name = true →
      (Step.declared d requiredBy).asks names := by
    intro d requiredBy hunsettled hmem
    rw [Installation.settled, List.contains_iff_mem.mpr hmem, Bool.true_or] at hunsettled
    exact hunsettled rfl
  cases h with
  | @own d i files hplaced =>
      have hagain := install_again again hplaced (hcurrent i (by simp))
      refine ⟨again, ?_, .inl rfl⟩
      rw [take, outcome_bind_of_ok hagain]
      simp [InstallationReport.again]
  | @settled d requiredBy hsettled =>
      refine ⟨again, ?_, .inl rfl⟩
      rw [take, settled_again, if_pos hsettled]
      rfl
  | @fetched d requiredBy index' a i files hunsettled _ hfound hplaced =>
      obtain rfl : index' = index := hindex index' rfl
      have hlookup := SiteAction.outcome_lookup d.name ⟨fs, again⟩
      rw [Scope.find_spec (hanswers (hasks hunsettled)), hfound] at hlookup
      have hagain :=
        install_again { again with index? := some index' } hplaced (hcurrent i (by simp))
      refine ⟨{ again with index? := some index' }, ?_, .inr rfl⟩
      rw [take, settled_again, if_neg hunsettled, outcome_bind_of_ok hlookup]
      dsimp only
      rw [outcome_bind_of_ok hagain]
      simp [InstallationReport.again]
  | @skipped d requiredBy index' hunsettled _ hmissing hoptional =>
      obtain rfl : index' = index := hindex index' rfl
      have hlookup := SiteAction.outcome_lookup d.name ⟨fs, again⟩
      rw [Scope.find_spec (hanswers (hasks hunsettled)), hmissing] at hlookup
      refine ⟨{ again with index? := some index' }, ?_, .inr rfl⟩
      rw [take, settled_again, if_neg hunsettled, outcome_bind_of_ok hlookup]
      dsimp only
      rw [if_pos hoptional]
      rfl

/-- **Steps that were taken can be taken again,** by induction on them. -/
theorem takeAll_again (h : outcome (takeAll target names {} taken) start = (.ok report, site))
    (hindex : ∀ frozen, site.scope.index? = some frozen → frozen = index)
    (hcurrent : ∀ i ∈ report.batch ++ report.dependencies, sameTime fs i.source i.target = true)
    (hanswers : ∀ step ∈ taken, step.asks names → again.Answers fs index) :
    ∃ again', outcome (takeAll target names {} taken) ⟨fs, again⟩ =
      (.ok report.again, ⟨fs, again'⟩) ∧
      (again' = again ∨ again' = { again with index? := some index }) := by
  induction taken using List.reverseRecOn generalizing report site with
  | nil =>
      cases h
      exact ⟨again, rfl, .inl rfl⟩
  | append_singleton taken step ih =>
      rw [takeAll_append] at h
      obtain ⟨report₁, site₁, htaken, hlast⟩ := outcome_bind_eq_ok_iff.mp h
      rw [takeAll] at hlast
      obtain ⟨report₂, site₂, htake, hdone⟩ := outcome_bind_eq_ok_iff.mp hlast
      cases hdone
      have hstep := advances_of_take htake
      obtain ⟨again₁, hbefore, hagain₁⟩ := ih htaken
        (fun frozen hfrozen => hindex frozen (hstep.keeps_index hfrozen))
        (fun i hi => hcurrent i (hstep.subset hi))
        fun s hs => hanswers s (List.mem_append_left _ hs)
      have hanswers₁ : step.asks names → again₁.Answers fs index := by
        intro hasks
        have hagain := hanswers step (by simp) hasks
        rcases hagain₁ with rfl | rfl
        · exact hagain
        · exact .inl rfl
      obtain ⟨again₂, hagain, hagain₂⟩ := hstep.take_again hindex hcurrent hanswers₁
      refine ⟨again₂, ?_, ?_⟩
      · rw [outcome_takeAll_append hbefore, takeAll, outcome_bind_of_ok hagain]
        rfl
      · rcases hagain₁ with rfl | rfl
        · exact hagain₂
        · exact .inr (hagain₂.elim id id)

/-! ### What is looked up again -/

/-- The first lookup falls between two parts of the placing. -/
theorem FirstLookup.split (h : FirstLookup target names start index taken)
    (hplaces : Places start.files records site.files)
    (hrecords : records.map (·.placement) = placements target names index [] taken) :
    ∃ before after there, records = before ++ after ∧ Places start.files before there ∧
      Places there after site.files ∧ start.scope.Answers there index := by
  obtain ⟨quiet, asking, later, rfl, -, -, there, hperforms, hanswers⟩ := h.first
  obtain ⟨earlier, hearlier, hplacements⟩ := hperforms
  rw [placements_append, ← hplacements] at hrecords
  obtain ⟨before, after, rfl, hbefore, -⟩ := List.map_eq_append_iff.mp hrecords
  obtain ⟨there', hfirst, hrest⟩ := Places.append_iff.mp hplaces
  obtain ⟨rfl, rfl⟩ := hfirst.unique hearlier hbefore
  exact ⟨before, after, there', rfl, hfirst, hrest, hanswers⟩

/-- **The scope answers as it did at the first lookup,** if none of its archives is a file of the
target directory. -/
theorem FirstLookup.answers_again (h : FirstLookup target names start index taken)
    (hplaces : Places start.files records site.files)
    (hrecords : records.map (·.placement) = placements target names index [] taken)
    (hseparate : Separate start.files target records)
    (hapart : ∀ a ∈ start.scope.archives, start.files.Apart target a.path) :
    start.scope.Answers site.files index := by
  obtain ⟨before, after, there, rfl, hbefore, hafter, hanswers⟩ := h.split hplaces hrecords
  refine hanswers.imp_right fun ⟨hfresh, hread⟩ => ⟨hfresh, ?_⟩
  rw [← hread]
  refine Scope.readIndex_congr fun a ha => ?_
  obtain ⟨m, hm⟩ := (Scope.readIndex_eq_ok_iff.mp hread).1 a ha
  obtain ⟨bytes, hbytes⟩ := Manifest.exists_read hm
  obtain ⟨time, hstat⟩ := read_eq_ok_iff.mp hbytes
  rw [hbytes]
  exact read_eq_ok_iff.mpr ⟨time, hbefore.stat_kept hafter hseparate hstat (hapart a ha)⟩

/-- What is placed is an archive of the batch or of the scope. -/
theorem Course.exists_archive (h : Course target names index start taken report site)
    (hseen : start.scope.AnswersFrom fs seen)
    (hp : p ∈ placements target names index [] taken) :
    (∃ d, .own d ∈ taken ∧ p.source = d.archive.path) ∨
      ∃ a ∈ start.scope.archives, p.source = a.path := by
  obtain ⟨earlier, step, later, rfl, hstep⟩ := exists_step_of_mem_placements hp
  cases step with
  | own d =>
      cases hstep
      exact .inl ⟨d, by simp, rfl⟩
  | declared d requiredBy =>
      rw [Step.placement?] at hstep
      split_ifs at hstep with hnothing
      obtain ⟨a, hfound, rfl⟩ := Option.map_eq_some_iff.mp hstep
      have hindexed : ∃ files, index = Scope.indexOf files start.scope.archives.toList := by
        rcases h.scope with ⟨hquiet, -⟩ | ⟨hfirst, -⟩
        · exact absurd (fun hmem => hnothing (.inl hmem))
            (hquiet (.declared d requiredBy) (by simp))
        · obtain ⟨-, -, -, -, -, -, there, -, hfrozen | ⟨-, hread⟩⟩ := hfirst.first
          · exact ⟨seen, (Scope.readIndex_eq_ok_iff.mp (hseen.frozen index hfrozen)).2⟩
          · exact ⟨there, (Scope.readIndex_eq_ok_iff.mp hread).2⟩
      obtain ⟨files, rfl⟩ := hindexed
      exact .inr ⟨a, Scope.mem_of_lookup hfound, rfl⟩

/-! ### Installing again -/

/-- **Installing again.** Suppose that no two archives of a batch have the same short name, that
none of its names, and of those it declares, has a slash, that no link stands in the target
directory and that no archive of the batch or of the scope is a file of it. If an installation
succeeds, then installing again with the same scope, as it was or as it is now, succeeds too: it
reports the same, with all archives up to date, and changes nothing. -/
theorem run_again (hseen : scope.AnswersFrom fs seen)
    (hmade : outcome (createDirs target) fs = (.ok (), made))
    (hrun : outcome (run target batch) ⟨fs, scope⟩ = (.ok report, site))
    (hdistinct : (batch.map (·.shortName)).Nodup) (hplain : PlainNames batch)
    (hnoLinks : NoLinksIn made target) (hbatch : ∀ d ∈ batch, made.Apart target d.archive.path)
    (hscope : ∀ a ∈ scope.archives, made.Apart target a.path)
    (hagain : again = scope ∨ again = site.scope) :
    ∃ again', outcome (run target batch) ⟨site.files, again⟩ =
      (.ok report.again, ⟨site.files, again'⟩) := by
  have hcourse := course_of_run hmade hrun
  obtain ⟨records, hplaces, hrecords, hperm⟩ := hcourse.placed
  have hseparate := separate_of_placements hmade hrecords hdistinct hplain hnoLinks
  have hcurrent : ∀ i ∈ report.batch ++ report.dependencies,
      sameTime site.files i.source i.target = true := by
    intro i hi
    have hplacement : i.placement ∈ records.map (·.placement) :=
      List.mem_map_of_mem (hperm.mem_iff.mp hi)
    have hapart : made.Apart target i.placement.source := by
      rcases hcourse.exists_archive hseen (hrecords ▸ hplacement) with
        ⟨d, hd, hsource⟩ | ⟨a, ha, hsource⟩
      · obtain ⟨d', hd', heq | ⟨dependency, -, heq⟩⟩ := mem_steps.mp hd
        · cases heq
          rw [hsource]
          exact hbatch d hd'
        · cases heq
      · rw [hsource]
        exact hscope a ha
    obtain ⟨before, after, rfl⟩ := List.append_of_mem (hperm.mem_iff.mp hi)
    obtain ⟨turn, bytes, held, time, -, -, htarget, -, hkept⟩ := hplaces.recorded hseparate
    exact sameTime_iff.mpr ⟨bytes, held, time, hkept hapart, htarget⟩
  have hanswers : ∀ step ∈ steps batch, step.asks (batch.map (·.shortName)) →
      again.Answers site.files (site.scope.index?.getD ∅) := by
    intro step hstep hasks
    rcases hcourse.scope with ⟨hquiet, -⟩ | ⟨hfirst, hfrozen⟩
    · exact absurd hasks (hquiet step hstep)
    · rcases hagain with rfl | rfl
      · exact hfirst.answers_again hplaces hrecords hseparate hscope
      · exact .inl (by rw [hfrozen]; rfl)
  rw [outcome_run hmade] at hrun
  obtain ⟨again', hagain', -⟩ := takeAll_again hrun
    (fun frozen h => by rw [h, Option.getD_some]) hcurrent hanswers
  have hgrows := (hplaces.writes hseparate.directory (.refl _ made) hseparate.under).grows
  have hmade' : outcome (createDirs target) site.files = (.ok (), site.files) :=
    createDirs_of_isDirectory (hseparate.directory.imp_right hgrows.isDirectory)
  rw [outcome_run hmade']
  exact ⟨again', hagain'⟩

/-- A module with a file under its name and an archive that was missing are installed again. -/
theorem run_again_stale :
    ∃ again', outcome (run ⟨"/plugins"⟩ staleBatch) ⟨staleSite.files, staleScope⟩ =
      (.ok staleReport.again, ⟨staleSite.files, again'⟩) := by
  have hseen : staleScope.AnswersFrom staleFiles staleFiles := by
    constructor
    · intro _
      rfl
    · intro index hindex
      cases hindex
  have hbatch : ∀ d ∈ staleBatch, staleFiles.Apart ⟨"/plugins"⟩ d.archive.path := by
    have hall : ∀ d ∈ staleBatch,
        (staleFiles.place d.archive.path).toOption.any (["plugins"].isPrefixOf ·) = false := by
      decide
    exact fun d hd => staleFiles_receives.apart (hall d hd)
  exact run_again hseen staleFiles_made staleFiles_run (by decide) (by decide)
    staleFiles_regular.noLinksIn hbatch staleScope_apart (.inl rfl)

end Installation

end RealmBoot
