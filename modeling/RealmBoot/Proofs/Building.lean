import RealmBoot.Proofs.Outcome
import RealmBoot.Realm.Builder

/-!
# What Building a Realm Does

A builder scans directories, adds or removes what the scans found, and finally reads the manifests
of the archives that are left. This module says, operation by operation, which archives a builder
holds afterwards and what the sealed realm exports; everything proved about realms elsewhere rests
on these statements and not on how the builder goes about it.

## Main results

* `RealmBuilder.collectAll_spec`, `RealmBuilder.excludeAll_spec`: the archives after several
  directories were collected, or excluded.
* `RealmBuilder.make_spec`: a sealed realm holds the archives of its builder, and exports what
  their manifests export.
* `RealmBuilder.exists_make_iff`: sealing succeeds exactly if every manifest can be read.
-/

namespace RealmBoot

/-- The manifest of an archive, as it stands in a file system, exports a name. -/
def Location.ExportsIn (fs : FileSystem) (archive : Location) (name : String) : Prop :=
  ∃ m, Manifest.ofArchive fs archive = .ok m ∧ name ∈ m.exportedTypes

/-- A scan of a directory succeeds and finds an archive. -/
def Scanner.Finds (s : Scanner) (fs : FileSystem) (dir : Path) (archive : Location) : Prop :=
  ∃ found, s.scanAll fs dir = .ok found ∧ archive ∈ found

/-- An archive of a realm exports a name. -/
def Realm.Exports (r : Realm) (archive : Location) (name : String) : Prop :=
  ∃ names, (archive, names) ∈ r.contents ∧ name ∈ names

/-- A name is exported by a realm exactly if some archive of it exports the name. -/
theorem Realm.mem_exports_iff {r : Realm} {name : String} :
    name ∈ r.exports ↔ ∃ a, r.Exports a name := by
  rw [exports, OrderedSet.mem_ofList, Index.mem_keys_iff, ← exporter?, exporter?_eq_find?,
    Option.isSome_map, List.find?_isSome]
  simp only [decide_eq_true_eq, Exports]
  constructor
  · rintro ⟨⟨a, names⟩, hmem, hname⟩
    exact ⟨a, names, hmem, hname⟩
  · rintro ⟨a, names, hmem, hname⟩
    exact ⟨(a, names), hmem, hname⟩

namespace RealmBuilder

/-! ### Collecting and excluding -/

/-- A directory can be collected exactly if it can be scanned. -/
theorem collect_eq_ok_iff {b b' : RealmBuilder} {fs : FileSystem} {dir : Path} :
    b.collect fs dir = .ok b' ↔
      ∃ found, b.scanner.scanAll fs dir = .ok found ∧
        b' = { b with
          archives := b.archives.union found
          sources := if dir.among b.sources then b.sources else b.sources ++ [dir] } := by
  rw [collect]
  rw [except_bind_eq_ok_iff]
  simp only [pure, Except.pure, Except.ok.injEq, eq_comm]

/-- A directory can be excluded exactly if it can be scanned. -/
theorem exclude_eq_ok_iff {b b' : RealmBuilder} {fs : FileSystem} {dir : Path} :
    b.exclude fs dir = .ok b' ↔
      ∃ found, b.scanner.scanAll fs dir = .ok found ∧
        b' = { b with archives := b.archives.without found } := by
  rw [exclude]
  rw [except_bind_eq_ok_iff]
  simp only [pure, Except.pure, Except.ok.injEq, eq_comm]

/-- Going through several directories scans each of them. If every step combines the archives at
hand with what its scan finds in one way, and a way in which only all that is found counts, the
archives at the end are those at the start combined with all finds. -/
theorem foldlM_scans {fs : FileSystem} (combine : Prop → Prop → Prop)
    {step : RealmBuilder → Path → Except DiscoveryError RealmBuilder}
    (hstep : ∀ {b b' : RealmBuilder} {dir : Path}, step b dir = .ok b' →
      b'.label = b.label ∧ b'.scanner = b.scanner ∧
        ∃ found, b.scanner.scanAll fs dir = .ok found ∧
          ∀ a, a ∈ b'.archives ↔ combine (a ∈ b.archives) (a ∈ found))
    (hnone : ∀ p, combine p False ↔ p)
    (hboth : ∀ p q r, combine (combine p q) r ↔ combine p (q ∨ r))
    {b b' : RealmBuilder} {dirs : List Path} (h : dirs.foldlM step b = .ok b') :
    b'.label = b.label ∧ b'.scanner = b.scanner ∧
      (∀ dir ∈ dirs, ∃ found, b.scanner.scanAll fs dir = .ok found) ∧
      ∀ a, a ∈ b'.archives ↔
        combine (a ∈ b.archives) (∃ dir ∈ dirs, b.scanner.Finds fs dir a) := by
  induction dirs generalizing b with
  | nil =>
      cases h
      simp [hnone]
  | cons dir dirs ih =>
      rw [List.foldlM_cons, except_bind_eq_ok_iff] at h
      obtain ⟨b₁, hfirst, hrest⟩ := h
      obtain ⟨hlabel, hscanner, found, hscan, hmem⟩ := hstep hfirst
      obtain ⟨hlabel', hscanner', hall, hmem'⟩ := ih hrest
      rw [hscanner] at hall
      refine ⟨hlabel'.trans hlabel, hscanner'.trans hscanner, ?_, ?_⟩
      · intro d hd
        rcases List.mem_cons.mp hd with rfl | hd
        · exact ⟨found, hscan⟩
        · exact hall d hd
      · intro a
        rw [hmem' a, hscanner, propext (hmem a), hboth]
        simp [Scanner.Finds, hscan]

/-- Collecting several directories scans each of them, and adds exactly what the scans find. -/
theorem collectAll_spec {b b' : RealmBuilder} {fs : FileSystem} {dirs : List Path}
    (h : b.collectAll fs dirs = .ok b') :
    b'.label = b.label ∧ b'.scanner = b.scanner ∧
      (∀ dir ∈ dirs, ∃ found, b.scanner.scanAll fs dir = .ok found) ∧
      ∀ a, a ∈ b'.archives ↔ a ∈ b.archives ∨ ∃ dir ∈ dirs, b.scanner.Finds fs dir a := by
  refine foldlM_scans Or ?_ (fun p => or_iff_left not_false) (fun p q r => or_assoc) h
  intro b b' dir hcollect
  obtain ⟨found, hscan, rfl⟩ := collect_eq_ok_iff.mp hcollect
  exact ⟨rfl, rfl, found, hscan, fun a => OrderedSet.mem_union⟩

/-- Excluding several directories scans each of them, and removes exactly what the scans find. -/
theorem excludeAll_spec {b b' : RealmBuilder} {fs : FileSystem} {dirs : List Path}
    (h : b.excludeAll fs dirs = .ok b') :
    b'.label = b.label ∧ b'.scanner = b.scanner ∧
      (∀ dir ∈ dirs, ∃ found, b.scanner.scanAll fs dir = .ok found) ∧
      ∀ a, a ∈ b'.archives ↔ a ∈ b.archives ∧ ¬ ∃ dir ∈ dirs, b.scanner.Finds fs dir a := by
  refine foldlM_scans (fun p q => p ∧ ¬ q) ?_ (fun p => and_iff_left not_false) ?_ h
  · intro b b' dir hexclude
    obtain ⟨found, hscan, rfl⟩ := exclude_eq_ok_iff.mp hexclude
    exact ⟨rfl, rfl, found, hscan, fun a => OrderedSet.mem_without⟩
  · intro p q r
    rw [and_assoc, not_or]

/-! ### Sealing -/

/-- Reading what archives export pairs each of them with the names its manifest lists. -/
theorem mem_readExports {fs : FileSystem} {archives : List Location}
    {contents : { contents : List (Location × List String) // contents.map (·.1) = archives }}
    (h : readExports fs archives = .ok contents) (a : Location) (names : List String) :
    (a, names) ∈ contents.val ↔
      a ∈ archives ∧ ∃ m, Manifest.ofArchive fs a = .ok m ∧ m.exportedTypes = names := by
  induction archives with
  | nil =>
      cases h
      simp
  | cons archive rest ih =>
      rw [readExports] at h
      split at h
      · cases h
      · next manifest hmanifest =>
          split at h
          · cases h
          · next contents' hmap hrest =>
              cases h
              rw [List.mem_cons, ih hrest, List.mem_cons, Prod.mk.injEq]
              constructor
              · rintro (⟨rfl, rfl⟩ | ⟨hmem, hm⟩)
                · exact ⟨.inl rfl, manifest, hmanifest, rfl⟩
                · exact ⟨.inr hmem, hm⟩
              · rintro ⟨rfl | hmem, m, hm, rfl⟩
                · rw [hmanifest] at hm
                  cases hm
                  exact .inl ⟨rfl, rfl⟩
                · exact .inr ⟨hmem, m, hm, rfl⟩

/-- What archives export can be read exactly if each manifest can. -/
theorem exists_readExports_iff {fs : FileSystem} {archives : List Location} :
    (∃ contents, readExports fs archives = .ok contents) ↔
      ∀ a ∈ archives, ∃ m, Manifest.ofArchive fs a = .ok m := by
  induction archives with
  | nil => simp [readExports]
  | cons archive rest ih =>
      rw [readExports, List.forall_mem_cons, ← ih]
      cases Manifest.ofArchive fs archive with
      | error e => simp
      | ok manifest => cases readExports fs rest <;> simp

/-- A sealed realm has the label, the directories and the archives of its builder, and exports what
the manifests of those archives export. -/
theorem make_spec {b : RealmBuilder} {fs : FileSystem} {r : Realm} (h : b.make fs = .ok r) :
    r.label = b.label ∧ r.sources = b.sources ∧ r.archives = b.archives ∧
      ∀ a name, r.Exports a name ↔ a ∈ b.archives ∧ a.ExportsIn fs name := by
  rw [make] at h
  split at h
  · cases h
  · next contents hmap hread =>
      cases h
      refine ⟨rfl, rfl, ?_, ?_⟩
      · simp [Realm.archives, hmap]
      · intro a name
        simp only [Realm.Exports, Location.ExportsIn, mem_readExports hread, OrderedSet.mem_def]
        constructor
        · rintro ⟨-, ⟨hmem, m, hm, rfl⟩, hname⟩
          exact ⟨hmem, m, hm, hname⟩
        · rintro ⟨hmem, m, hm, hname⟩
          exact ⟨m.exportedTypes, ⟨hmem, m, hm, rfl⟩, hname⟩

/-- A sealed realm exports exactly what the manifests of its archives export. -/
theorem mem_exports_of_make {b : RealmBuilder} {fs : FileSystem} {r : Realm}
    (h : b.make fs = .ok r) (name : String) :
    name ∈ r.exports ↔ ∃ a ∈ r.archives, a.ExportsIn fs name := by
  obtain ⟨-, -, harchives, hexports⟩ := make_spec h
  rw [Realm.mem_exports_iff, harchives]
  exact exists_congr fun a => hexports a name

/-- A realm can be sealed exactly if every manifest of its builder's archives can be read. -/
theorem exists_make_iff {b : RealmBuilder} {fs : FileSystem} :
    (∃ r, b.make fs = .ok r) ↔ ∀ a ∈ b.archives, ∃ m, Manifest.ofArchive fs a = .ok m := by
  simp only [OrderedSet.mem_def]
  rw [← exists_readExports_iff]
  rw [make]
  cases readExports fs b.archives.toList <;> simp

/-- What archives export cannot be read because some manifest cannot. -/
theorem exists_of_readExports_error {fs : FileSystem} {archives : List Location}
    {e : DiscoveryError} (h : readExports fs archives = .error e) :
    ∃ a ∈ archives, Manifest.ofArchive fs a = .error e := by
  induction archives with
  | nil => cases h
  | cons archive rest ih =>
      rw [readExports] at h
      split at h
      · next e' hmanifest =>
          cases h
          exact ⟨archive, List.mem_cons_self, hmanifest⟩
      · split at h
        · next e' hrest =>
            cases h
            obtain ⟨a, ha, he⟩ := ih hrest
            exact ⟨a, List.mem_cons_of_mem _ ha, he⟩
        · cases h

/-- A realm cannot be sealed because some manifest of its builder's archives cannot be read. -/
theorem exists_of_make_error {b : RealmBuilder} {fs : FileSystem} {e : DiscoveryError}
    (h : b.make fs = .error e) : ∃ a ∈ b.archives, Manifest.ofArchive fs a = .error e := by
  simp only [OrderedSet.mem_def]
  refine exists_of_readExports_error ?_
  rw [make] at h
  cases hread : readExports fs b.archives.toList with
  | ok contents => simp [hread] at h
  | error e' => simpa [hread] using h

end RealmBuilder

end RealmBoot
