import RealmBoot.Archive.Discovery

/-!
# Resolution Errors

What can go wrong while extension archives are installed together with what they depend on.
-/

namespace RealmBoot

/-- Why an installation failed. -/
inductive ResolutionError where
  /-- A required dependency is found nowhere; dependency and scope are given as shown. -/
  | missingDependency (dependency requiredBy scope : String)
  /-- An archive is no extension archive, as it has no short name. -/
  | missingShortName (archive : Location)
  /-- A declaration does not have the form of a dependency. -/
  | malformedDependency (token declaredBy : String)
  /-- An archive cannot be copied. -/
  | copy (source target : Path) (fault : Fault)
  /-- An archive cannot be found or read. -/
  | discovery (error : DiscoveryError)
deriving DecidableEq, Repr

/-- The text of a resolution error. -/
def ResolutionError.message : ResolutionError → String
  | missingDependency dependency requiredBy scope =>
    "Could not resolve " ++ dependency ++ " required by " ++ requiredBy ++ " in " ++ scope
  | missingShortName archive => archive.text ++ " doesn't have the Short-Name attribute"
  | malformedDependency token declaredBy =>
    "Malformed dependency `" ++ token ++ "` declared by " ++ declaredBy
  | copy source target fault =>
    "Failed to install " ++ source.quoted ++ " as " ++ target.quoted ++ ": " ++ fault.message
  | discovery error => error.message

end RealmBoot
