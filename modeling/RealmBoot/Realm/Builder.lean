import RealmBoot.Archive.Scanner
import RealmBoot.Realm.Sealed

/-!
# Building Realms

A builder gathers a working set of archives. Collecting and excluding a directory scan it in the
same way, so what a directory contributed is removed again exactly. Sealing the set reads the
manifests of its archives.
-/

namespace RealmBoot

/-- A working set of archives. -/
structure RealmBuilder where
  /-- The label the realm will have. -/
  label : String
  /-- How archives are recognised. -/
  scanner : Scanner := .modules
  /-- The archives gathered. -/
  archives : OrderedSet Location := ∅
  /-- The directories collected, in the order of their first collection. -/
  sources : List Path := []
deriving Inhabited

namespace RealmBuilder

/-- Adds the archives below a directory. -/
def collect (b : RealmBuilder) (fs : FileSystem) (dir : Path) :
    Except DiscoveryError RealmBuilder := do
  let found ← b.scanner.scanAll fs dir
  pure { b with
    archives := b.archives.union found
    sources := if dir.among b.sources then b.sources else b.sources ++ [dir] }

/-- Removes the archives below a directory. -/
def exclude (b : RealmBuilder) (fs : FileSystem) (dir : Path) :
    Except DiscoveryError RealmBuilder := do
  let found ← b.scanner.scanAll fs dir
  pure { b with archives := b.archives.without found }

/-- Adds one archive. -/
def add (b : RealmBuilder) (archive : Location) : RealmBuilder :=
  { b with archives := b.archives.insert archive }

/-- Collects several directories one after another. -/
def collectAll (b : RealmBuilder) (fs : FileSystem) (dirs : List Path) :
    Except DiscoveryError RealmBuilder :=
  dirs.foldlM (fun b dir => b.collect fs dir) b

/-- Excludes several directories one after another. -/
def excludeAll (b : RealmBuilder) (fs : FileSystem) (dirs : List Path) :
    Except DiscoveryError RealmBuilder :=
  dirs.foldlM (fun b dir => b.exclude fs dir) b

/-- Pairs archives with the names their manifests export, or gives the first error met. -/
def readExports (fs : FileSystem) : (archives : List Location) →
    Except DiscoveryError { contents : List (Location × List String) //
      contents.map (·.1) = archives }
  | [] => .ok ⟨[], rfl⟩
  | archive :: rest =>
    match Manifest.ofArchive fs archive with
    | .error e => .error e
    | .ok manifest =>
      match readExports fs rest with
      | .error e => .error e
      | .ok ⟨contents, h⟩ => .ok ⟨(archive, manifest.exportedTypes) :: contents, by simp [h]⟩

/-- Seals the working set. -/
def make (b : RealmBuilder) (fs : FileSystem) : Except DiscoveryError Realm :=
  match readExports fs b.archives.toList with
  | .error e => .error e
  | .ok ⟨contents, h⟩ =>
    .ok { label := b.label, sources := b.sources, contents, sorted := h ▸ b.archives.sorted }

end RealmBuilder

end RealmBoot
