import RealmBoot.Path.Location

/-!
# Definitions

What resolving a qualified name yields: which realm defines it, and whether the platform itself or
an archive is its origin.
-/

namespace RealmBoot

/-- Where a name is defined. -/
inductive Origin where
  /-- The program itself. -/
  | platform
  /-- An archive. -/
  | archive (location : Location)
deriving DecidableEq, Repr, Inhabited

/-- How an origin is shown. -/
def Origin.text : Origin → String
  | platform => "platform"
  | archive location => location.uri

instance : ToString Origin := ⟨Origin.text⟩

/-- A resolved name. -/
structure Definition where
  /-- The name. -/
  name : String
  /-- The label of the realm that defines it. -/
  realm : String
  /-- Its origin. -/
  origin : Origin
deriving DecidableEq, Repr, Inhabited

end RealmBoot
