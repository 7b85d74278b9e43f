import RealmBoot.Extension.Dependency

/-!
# Descriptors

What the manifest of an extension archive says about it: its short name, its version and what it
depends on.
-/

namespace RealmBoot

/-- Identity and dependencies of an extension archive. -/
structure Descriptor where
  /-- The archive. -/
  archive : Location
  /-- Its short name. -/
  shortName : String
  /-- Its version, if it gives one. -/
  version? : Option String
  /-- What it depends on, in the order declared. -/
  dependencies : List Dependency
deriving DecidableEq, Repr, Inhabited

namespace Descriptor

/-- The descriptor of an archive with the given manifest. -/
def ofManifest (archive : Location) (m : Manifest) : Except ResolutionError Descriptor :=
  match m.shortName? with
  | none => .error (.missingShortName archive)
  | some shortName => do
    let dependencies ← match m.dependencies? with
      | none => pure []
      | some list => Dependency.parseList list shortName
    pure { archive, shortName, version? := m.version?, dependencies }

/-- Reads the descriptor of an archive. -/
def ofArchive (fs : FileSystem) (archive : Location) : Except ResolutionError Descriptor :=
  match Manifest.ofArchive fs archive with
  | .error e => .error (.discovery e)
  | .ok m => ofManifest archive m

end Descriptor

end RealmBoot
