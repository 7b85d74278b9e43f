import RealmBoot.Archive.Manifest
import RealmBoot.Files.Walk

/-!
# Discovery Errors

What can go wrong while archives are looked for or their manifests are read. That a path does not
exist is no error of a search: a missing root is an empty one.
-/

namespace RealmBoot

/-- Why archives could not be found or read. -/
inductive DiscoveryError where
  /-- A file cannot be read. -/
  | io (path : Path) (fault : Fault)
  /-- The manifest of an archive is wrong. -/
  | manifest (archive : Location) (error : ManifestError)
  /-- A directory tree cannot be walked. -/
  | walk (fault : WalkFault)
  /-- A link leads back to a directory above it. -/
  | symlinkLoop (path ancestor : Path)
  /-- A directory that has to exist does not. -/
  | missingDirectory (path : Path) (what : String)
deriving DecidableEq, Repr

namespace DiscoveryError

/-- The text of a discovery error. -/
def message : DiscoveryError → String
  | io path fault => "Failed to read " ++ path.quoted ++ ": " ++ fault.message
  | manifest archive error =>
    "Invalid manifest in archive " ++ archive.text ++ ": " ++ error.message
  | walk fault => "Failed to walk " ++ fault.path.quoted ++ ": " ++ fault.message
  | symlinkLoop path ancestor =>
    "Symbolic link " ++ path.quoted ++ " loops back to " ++ ancestor.quoted
  | missingDirectory path what =>
    "Required directory is missing: " ++ path.quoted ++ " (" ++ what ++ ")"

/-- How a search takes a fault of its walk; what does not exist is stepped over. -/
def ofWalkFault? (f : WalkFault) : Option DiscoveryError :=
  match f.cause with
  | .loop ancestor => some (.symlinkLoop f.path ancestor)
  | .fault .notFound => none
  | .fault _ => some (.walk f)

end DiscoveryError

namespace Location

/-- The location of a path in a file system. -/
def ofPath (fs : FileSystem) (p : Path) : Except DiscoveryError Location :=
  if fs.isAdrift p then .error (.io p .notFound)
  else match ofPath? fs.workLocation p with
    | some l => .ok l
    | none => .error (.io p .emptyPath)

end Location

namespace Manifest

/-- Reads the manifest of an archive. -/
def ofArchive (fs : FileSystem) (archive : Location) : Except DiscoveryError Manifest :=
  match fs.read archive.path with
  | .error fault => .error (.io archive.path fault)
  | .ok bytes =>
    match parseBytes bytes with
    | .error e => .error (.manifest archive e)
    | .ok m => .ok m

end Manifest

end RealmBoot
