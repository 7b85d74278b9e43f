import RealmBoot.Launch.Assembly
import RealmBoot.Proofs.HaltedInstallation

/-!
# What an Assembly Leaves

An assembly reads what it is given before it changes anything, and then installs into one directory
of the home. This module says what that leaves: where files can have changed, and what is there
after an assembly that failed.

## Main results

* `Assembly.assemble_confined`: an assembly changes files in the directory of the home only.
* `Assembly.assemble_failed`: an assembly that fails leaves what the steps before the failing one
  did.
-/

namespace RealmBoot

open FileSystem

/-! ### Where files change -/

/-- Files have changed in a directory only: what stands anywhere stood there before, is a directory
that was made on the way, or stands in the directory under a name. -/
def Confined (target : Path) (fs fs' : FileSystem) : Prop :=
  ∀ p, fs'.node? p = fs.node? p ∨
    (fs.node? p = none ∧ fs'.node? p = some .directory ∧
      (outcome (createDirs target) fs).2.Along target p) ∨
    ∃ q s, (outcome (createDirs target) fs).2.Receives target q ∧ Location.IsName s ∧ p = q ++ [s]

namespace Installation

variable {target : Path} {batch : List Descriptor} {fs : FileSystem} {scope : Scope}

/-- No link stands in a directory under a file name of a batch. -/
def NoLinksFor (batch : List Descriptor) (made : FileSystem) (target : Path) : Prop :=
  ∀ step ∈ steps batch, ∀ q, made.Receives target q → ∀ linked,
    made.node? (q ++ [step.fileName]) ≠ some (.link linked)

/-- No link stands there if nothing stands under a file name. -/
theorem noLinksFor_of_vacant {made : FileSystem} {q : Place} (hreceives : made.Receives target q)
    (hvacant : ∀ step ∈ steps batch, made.node? (q ++ [step.fileName]) = none) :
    NoLinksFor batch made target := by
  intro step hstep
  refine hreceives.all fun linked hlink => ?_
  rw [hvacant step hstep] at hlink
  cases hlink

/-- **An installation is confined to the target directory,** however it ends, if no name has a slash
and no link stands under a file name. -/
theorem run_confined (hplain : PlainNames batch)
    (hnoLinks : NoLinksFor batch (outcome (createDirs target) fs).2 target) (scope : Scope) :
    Confined target fs (outcome (run target batch) ⟨fs, scope⟩).2.files := by
  intro p
  rcases run_performs target batch fs scope with
    hunchanged | ⟨made, index, taken, hmade, htaken, records, hplaces, hrecords⟩
  · rw [hunchanged]
    exact (node?_createDirs target fs p).imp_right .inl
  · have hmaking := node?_createDirs target fs p
    rw [hmade] at hmaking hnoLinks ⊢
    have hunder := goesUnder_of_placements hrecords
      (fun step hstep => hplain.isName (htaken.subset hstep))
      fun step hstep => hnoLinks step (htaken.subset hstep)
    have hwrites := hplaces.writes (isDirectory_of_createDirs hmade) (.refl _ made) hunder
    rcases hwrites.node p with hsame | ⟨⟨i, -, q, s, hq, hs, -, rfl⟩, -⟩
    · rw [hsame]
      exact hmaking.imp_right .inl
    · exact .inr (.inr ⟨q, s, hq, hs, rfl⟩)

/-- What is reported goes under a name of the target directory, if no name has a slash. -/
theorem target_of_run {site : Site} {report : InstallationReport} (hplain : PlainNames batch)
    (hrun : outcome (run target batch) ⟨fs, scope⟩ = (.ok report, site)) :
    ∀ i ∈ report.batch ++ report.dependencies, ∃ s, Location.IsName s ∧
      i.target = target.child s := by
  obtain ⟨made, hmade, -⟩ := run_of_ok hrun
  obtain ⟨records, -, hrecords, hperm⟩ := (course_of_run hmade hrun).placed
  intro i hi
  have hplacement : i.placement ∈ records.map (·.placement) :=
    List.mem_map_of_mem (hperm.mem_iff.mp hi)
  rw [hrecords] at hplacement
  obtain ⟨earlier, step, later, hsteps, hstep⟩ := exists_step_of_mem_placements hplacement
  refine ⟨step.fileName, hplain.isName ?_, target_of_placement? hstep⟩
  rw [hsteps]
  simp

end Installation

namespace Assembly

variable {home : Path} {archives search : List Path} {scanner : Scanner} {w w' : World}
  {batch : List Descriptor} {scope : Scope}

/-! ### An assembly -/

/-- An assembly that cannot read a descriptor leaves everything as it is. -/
theorem outcome_assemble_of_descriptors {failure : Failure}
    (h : descriptors w.files archives = .error failure) :
    outcome (assemble home archives search scanner) w = (.error failure, w) := by
  rw [assemble, outcome_bind_of_ok (outcome_files w), h]
  exact outcome_bind_of_error rfl

/-- An assembly that cannot scan a search directory leaves everything as it is. -/
theorem outcome_assemble_of_scan {e : DiscoveryError}
    (hbatch : descriptors w.files archives = .ok batch)
    (h : Scope.scan scanner w.files search = .error e) :
    outcome (assemble home archives search scanner) w = (.error (.discovery e), w) := by
  have hdescriptors : outcome (Effect.ofExcept (.ok batch) : Effect Failure (List Descriptor)) w =
      (.ok batch, w) := rfl
  rw [assemble, outcome_bind_of_ok (outcome_files w), hbatch, outcome_bind_of_ok hdescriptors, h]
  rfl

/-- An assembly that could read what it is given comes down to an installation. -/
theorem outcome_assemble (hbatch : descriptors w.files archives = .ok batch)
    (hscope : Scope.scan scanner w.files search = .ok scope) :
    outcome (assemble home archives search scanner) w =
      ((outcome (Installation.run (pluginsDir home) batch) ⟨w.files, scope⟩).1.mapError .resolution,
        { w with files :=
          (outcome (Installation.run (pluginsDir home) batch) ⟨w.files, scope⟩).2.files }) := by
  have hdescriptors : outcome (Effect.ofExcept (.ok batch) : Effect Failure (List Descriptor)) w =
      (.ok batch, w) := rfl
  rw [assemble, outcome_bind_of_ok (outcome_files w), hbatch, outcome_bind_of_ok hdescriptors,
    hscope]
  dsimp only
  rw [outcome_effect_mapFailure]
  rfl

/-- **An assembly is confined to the directory of the home,** whether it succeeds or fails, if no
name has a slash and no link stands under a file name. All it reports goes directly into that
directory. -/
theorem assemble_confined (hbatch : descriptors w.files archives = .ok batch)
    (hplain : Installation.PlainNames batch)
    (hnoLinks : Installation.NoLinksFor batch (outcome (createDirs (pluginsDir home)) w.files).2
      (pluginsDir home)) (search : List Path) (scanner : Scanner) :
    let left := (outcome (assemble home archives search scanner) w).2
    left = { w with files := left.files } ∧ Confined (pluginsDir home) w.files left.files ∧
      ∀ report, (outcome (assemble home archives search scanner) w).1 = .ok report →
        ∀ i ∈ report.batch ++ report.dependencies, ∃ s, Location.IsName s ∧
          i.target = (pluginsDir home).child s := by
  intro left
  rcases hscope : Scope.scan scanner w.files search with e | scope
  · have hfail : outcome (assemble home archives search scanner) w = (.error (.discovery e), w) :=
      outcome_assemble_of_scan hbatch hscope
    have hleft : left = w := congrArg Prod.snd hfail
    rw [hleft, hfail]
    exact ⟨rfl, fun p => .inl rfl, fun report hreport => nomatch hreport⟩
  · have hrun : outcome (assemble home archives search scanner) w = _ :=
      outcome_assemble hbatch hscope
    have hleft := congrArg Prod.snd hrun
    refine ⟨?_, ?_, fun report hreport => ?_⟩
    · rw [show left = _ from hleft]
    · rw [show left = _ from hleft]
      exact Installation.run_confined hplain hnoLinks scope
    · rw [hrun] at hreport
      rcases hresult : outcome (Installation.run (pluginsDir home) batch) ⟨w.files, scope⟩ with
        ⟨e | report', site⟩
      · rw [hresult] at hreport
        cases hreport
      · rw [hresult] at hreport
        cases hreport
        exact Installation.target_of_run hplain hresult

/-- Two modules, the first of which needs an archive that is found and the second one that is not.
-/
def halfwayWorld : World :=
  { files := { root := [
      ("home", .directory []),
      ("modules", .directory [
        ("one.hpi", .file "Short-Name: one\nPlugin-Dependencies: core:1\n".toUTF8 (.at 1)),
        ("two.hpi", .file "Short-Name: two\nPlugin-Dependencies: one:1,gone:2\n".toUTF8 (.at 2))]),
      ("repo", .directory [("core.jpi", .file "Short-Name: core\n".toUTF8 (.at 3))])] } }

/-- The two modules. -/
def halfwayBatch : List Descriptor :=
  [{ archive := ⟨["modules", "one.hpi"]⟩
     shortName := "one"
     version? := none
     dependencies := [⟨"core", "1", false⟩] },
   { archive := ⟨["modules", "two.hpi"]⟩
     shortName := "two"
     version? := none
     dependencies := [⟨"one", "1", false⟩, ⟨"gone", "2", false⟩] }]

/-- Assembling them into the home. -/
def halfwayAssembly : Effect Failure InstallationReport :=
  assemble ⟨"/home"⟩ [⟨"/modules/one.hpi"⟩, ⟨"/modules/two.hpi"⟩] [⟨"/repo"⟩] .extensionModules

/-- The batch is what is read from the two modules. -/
theorem halfwayBatch_read :
    descriptors halfwayWorld.files [⟨"/modules/one.hpi"⟩, ⟨"/modules/two.hpi"⟩] =
      .ok halfwayBatch := except_eq_ok_of_toOption (by decide)

/-- What that leaves was added to the directory of the home. -/
theorem assemble_confined_halfway :
    Confined (pluginsDir ⟨"/home"⟩) halfwayWorld.files
        (outcome halfwayAssembly halfwayWorld).2.files ∧
      (outcome halfwayAssembly halfwayWorld).2.files.children ["home"] =
        [("plugins", .directory)] := by
  have hreceives : (outcome (createDirs (pluginsDir ⟨"/home"⟩)) halfwayWorld.files).2.Receives
      (pluginsDir ⟨"/home"⟩) ["home", "plugins"] := ⟨by decide, by decide⟩
  have hnoLinks : Installation.NoLinksFor halfwayBatch
      (outcome (createDirs (pluginsDir ⟨"/home"⟩)) halfwayWorld.files).2
      (pluginsDir ⟨"/home"⟩) :=
    Installation.noLinksFor_of_vacant hreceives (by decide)
  refine ⟨?_, by decide +kernel⟩
  rw [halfwayAssembly]
  exact (assemble_confined halfwayBatch_read (by decide) hnoLinks [⟨"/repo"⟩] .extensionModules).2.1

/-- Assembling would change files in the directory of the home only, for all batches that are
harmless. -/
def AlwaysConfined (harmless : List Descriptor → FileSystem → Path → Prop) : Prop :=
  ∀ (home : Path) (archives search : List Path) (scanner : Scanner) (w : World)
    (batch : List Descriptor), descriptors w.files archives = .ok batch →
    harmless batch (outcome (createDirs (pluginsDir home)) w.files).2 (pluginsDir home) →
    Confined (pluginsDir home) w.files (outcome (assemble home archives search scanner) w).2.files

/-- A module whose short name leads out of any directory, and one under whose file name a link
stands. -/
def outsideWorld : World :=
  { files := { root := [
      ("home", .directory [("plugins", .directory [("a.jpl", .link ⟨"/out"⟩)])]),
      ("modules", .directory [
        ("a.hpi", .file "Short-Name: a\n".toUTF8 (.at 1)),
        ("e.hpi", .file "Short-Name: ../../evil\n".toUTF8 (.at 2))])] } }

/-- **Assembling is not confined** if short names may have slashes, nor if links may stand under the
file names. Each time a file is added at the top, where none may change. -/
theorem not_alwaysConfined :
    ¬ AlwaysConfined Installation.NoLinksFor ∧
      ¬ AlwaysConfined fun batch _ _ => Installation.PlainNames batch := by
  have hreceives : (outcome (createDirs (pluginsDir ⟨"/home"⟩)) outsideWorld.files).2.Receives
      (pluginsDir ⟨"/home"⟩) ["home", "plugins"] := ⟨by decide, by decide⟩
  have houtside : ∀ (s : String) (fs : FileSystem), outsideWorld.files.node? [s] = none →
      (fs.node? [s]).map Node.kind = some .file →
      ¬ Confined (pluginsDir ⟨"/home"⟩) outsideWorld.files fs := by
    intro s fs hbefore hafter hconfined
    rcases hconfined [s] with hsame | ⟨-, hdirectory, -⟩ | ⟨q, t, hq, -, hplace⟩
    · rw [hsame, hbefore] at hafter
      cases hafter
    · rw [hdirectory] at hafter
      cases hafter
    · obtain rfl := hq.unique hreceives
      cases hplace
  constructor
  · intro hconfined
    have hbatch : descriptors outsideWorld.files [⟨"/modules/e.hpi"⟩] =
        .ok [⟨⟨["modules", "e.hpi"]⟩, "../../evil", none, []⟩] :=
      except_eq_ok_of_toOption (by decide)
    have hnoLinks : Installation.NoLinksFor [⟨⟨["modules", "e.hpi"]⟩, "../../evil", none, []⟩]
        (outcome (createDirs (pluginsDir ⟨"/home"⟩)) outsideWorld.files).2
        (pluginsDir ⟨"/home"⟩) :=
      Installation.noLinksFor_of_vacant hreceives (by decide)
    exact houtside "evil.jpl" _ (by decide) (by decide +kernel)
      (hconfined ⟨"/home"⟩ [⟨"/modules/e.hpi"⟩] [] .extensionModules outsideWorld _ hbatch hnoLinks)
  · intro hconfined
    have hbatch : descriptors outsideWorld.files [⟨"/modules/a.hpi"⟩] =
        .ok [⟨⟨["modules", "a.hpi"]⟩, "a", none, []⟩] :=
      except_eq_ok_of_toOption (by decide)
    exact houtside "out" _ (by decide) (by decide +kernel)
      (hconfined ⟨"/home"⟩ [⟨"/modules/a.hpi"⟩] [] .extensionModules outsideWorld _ hbatch
        (by decide))

/-! ### After a failure -/

/-- The manifest of the archive under a path gives a descriptor. -/
def Describes (fs : FileSystem) (path : Path) (d : Descriptor) : Prop :=
  ∃ archive, Location.ofPath fs path = .ok archive ∧ Descriptor.ofArchive fs archive = .ok d

/-- The descriptors cannot be read if one of them cannot. -/
theorem exists_descriptors_error {fs : FileSystem}
    (h : ∃ path ∈ archives, ∀ d, ¬ Describes fs path d) :
    ∃ failure, descriptors fs archives = .error failure := by
  induction archives with
  | nil => simp at h
  | cons path archives ih =>
      rw [descriptors]
      cases hlocation : Location.ofPath fs path with
      | error e => exact ⟨_, rfl⟩
      | ok archive =>
          dsimp only
          cases hdescriptor : Descriptor.ofArchive fs archive with
          | error e => exact ⟨_, rfl⟩
          | ok d =>
              obtain ⟨path', hpath', hnone⟩ := h
              rcases List.mem_cons.mp hpath' with rfl | hmem
              · exact absurd ⟨archive, hlocation, hdescriptor⟩ (hnone d)
              · obtain ⟨failure, hfailure⟩ := ih ⟨path', hmem, hnone⟩
                exact ⟨failure, by rw [hfailure]; rfl⟩

/-- The search directories cannot be scanned if one of them cannot. -/
theorem exists_scan_error {fs : FileSystem}
    (h : ∃ root ∈ search, ∃ e, scanner.scanAll fs root = .error e) :
    ∃ e, Scope.scan scanner fs search = .error e := by
  have hroots : ∃ e, Scope.scanRoots scanner fs search = .error e := by
    induction search with
    | nil => simp at h
    | cons root search ih =>
        rw [Scope.scanRoots]
        cases hfound : scanner.scanAll fs root with
        | error e => exact ⟨e, rfl⟩
        | ok found =>
            obtain ⟨root', hroot', e, he⟩ := h
            rcases List.mem_cons.mp hroot' with rfl | hmem
            · rw [hfound] at he
              cases he
            · obtain ⟨e', he'⟩ := ih ⟨root', hmem, e, he⟩
              exact ⟨e', by rw [he']; rfl⟩
  obtain ⟨e, he⟩ := hroots
  exact ⟨e, by rw [Scope.scan, he]; rfl⟩

/-- **An assembly that fails** leaves everything as it is if a descriptor cannot be read or a search
directory cannot be scanned. Otherwise the installation has halted, and the files are as it has left
them: with the directory made, and with the installs of the steps before the failing one performed.
If the batch has all that it declares, it would have failed in the same way with nothing to search
in. -/
theorem assemble_failed (home : Path) (archives search : List Path) (scanner : Scanner)
    (w : World) :
    ((∃ path ∈ archives, ∀ d, ¬ Describes w.files path d) ∨
      (∃ root ∈ search, ∃ e, scanner.scanAll w.files root = .error e) →
        ∃ failure, outcome (assemble home archives search scanner) w = (.error failure, w)) ∧
      ∀ batch scope failure w', descriptors w.files archives = .ok batch →
        Scope.scan scanner w.files search = .ok scope →
        outcome (assemble home archives search scanner) w = (.error failure, w') →
        ∃ e, failure = .resolution e ∧ w' = { w with files := w'.files } ∧
          Installation.Halts (pluginsDir home) batch scope w.files e w'.files ∧
          (Installation.Satisfied batch →
            outcome (inScope {} (Installation.run (pluginsDir home) batch)) w =
              (.error e, w')) := by
  refine ⟨fun hunread => ?_, fun batch scope failure w' hbatch hscope hfail => ?_⟩
  · cases hbatch : descriptors w.files archives with
    | error failure => exact ⟨failure, outcome_assemble_of_descriptors hbatch⟩
    | ok batch =>
        rcases hunread with harchive | hroot
        · obtain ⟨failure, hfailure⟩ := exists_descriptors_error harchive
          rw [hbatch] at hfailure
          cases hfailure
        · obtain ⟨e, he⟩ := exists_scan_error hroot
          exact ⟨_, outcome_assemble_of_scan hbatch he⟩
  · rw [outcome_assemble hbatch hscope] at hfail
    rcases hrun : outcome (Installation.run (pluginsDir home) batch) ⟨w.files, scope⟩ with
      ⟨e | report, site⟩
    · rw [hrun] at hfail
      cases hfail
      refine ⟨e, rfl, rfl, Installation.halts_of_run hrun, fun hsatisfied => ?_⟩
      have hsame :=
        Installation.outcome_run_of_satisfied hsatisfied (pluginsDir home) w.files {} scope
      rw [hrun] at hsame
      have hscoped : ∀ x : SiteAction InstallationReport, outcome (inScope {} x) w =
          ((outcome x ⟨w.files, {}⟩).1, { w with files := (outcome x ⟨w.files, {}⟩).2.files }) :=
        fun _ => rfl
      rw [hscoped, hsame]
    · rw [hrun] at hfail
      cases hfail

/-- What keeps the two modules from being assembled. -/
def halfwayError : ResolutionError :=
  .missingDependency "gone:2" "two" "search scope [/repo] with archives [core.jpi]"

/-- Assembling the two modules fails at the second declaration of the second one, and leaves what
the steps before it installed. -/
theorem assemble_failed_halfway :
    ∃ scope left, outcome halfwayAssembly halfwayWorld =
        (.error (.resolution halfwayError), left) ∧
      Installation.Halts (pluginsDir ⟨"/home"⟩) halfwayBatch scope halfwayWorld.files halfwayError
        left.files ∧
      left.files.children ["home", "plugins"] =
        [("core.jpi", .file), ("one.jpl", .file), ("two.jpl", .file)] := by
  have hleft : (outcome halfwayAssembly halfwayWorld).2.files.children ["home", "plugins"] =
      [("core.jpi", .file), ("one.jpl", .file), ("two.jpl", .file)] := by decide +kernel
  obtain ⟨scope, hscope⟩ : ∃ scope, Scope.scan .extensionModules halfwayWorld.files [⟨"/repo"⟩] =
      .ok scope := by
    have hsome : (Scope.scan .extensionModules halfwayWorld.files [⟨"/repo"⟩]).toOption.isSome =
        true := by decide
    obtain ⟨scope, hscope⟩ := Option.isSome_iff_exists.mp hsome
    exact ⟨scope, except_eq_ok_of_toOption hscope⟩
  have herror : (match (outcome halfwayAssembly halfwayWorld).1 with
      | .error (.resolution e) => some e
      | _ => none) = some halfwayError := by decide +kernel
  split at herror
  · next e hresult =>
      cases herror
      have hfail := outcome_of_result hresult
      obtain ⟨e, heq, -, hhalts, -⟩ := (assemble_failed ⟨"/home"⟩
        [⟨"/modules/one.hpi"⟩, ⟨"/modules/two.hpi"⟩] [⟨"/repo"⟩] .extensionModules halfwayWorld).2
          halfwayBatch scope _ _ halfwayBatch_read hscope hfail
      cases heq
      exact ⟨scope, _, hfail, hhalts, hleft⟩
  · cases herror

end Assembly

end RealmBoot
