import RealmBoot.OrderedSet
import RealmBoot.Realm.Definition

/-!
# The Platform Realm

The realm of the program's own types. It shows other realms only what it was told to expose, name
by name or by the beginning of names.
-/

namespace RealmBoot

/-- The names the platform exposes. -/
structure PlatformRealm where
  /-- Every name that begins with one of these is exposed. -/
  prefixes : List String := []
  /-- These names are exposed. -/
  names : OrderedSet String := ∅
deriving DecidableEq, Inhabited

namespace PlatformRealm

/-- The label of every platform realm. -/
def label (_ : PlatformRealm) : String := "platform"

/-- What the names of the start-up types begin with. -/
def bootstrapStart : String := "pipeline.runner.bootstrap."

/-- Exposes the names that begin with a text. -/
def exposeStart (p : PlatformRealm) (start : String) : PlatformRealm :=
  { p with prefixes := p.prefixes ++ [start] }

/-- Exposes one name. -/
def expose (p : PlatformRealm) (name : String) : PlatformRealm :=
  { p with names := p.names.insert name }

/-- The platform realm that exposes nothing. -/
def empty : PlatformRealm := {}

/-- The platform realm that exposes the start-up types. -/
def bootstrap : PlatformRealm := empty.exposeStart bootstrapStart

/-- Whether a name is exposed. -/
def exposes (p : PlatformRealm) (name : String) : Bool :=
  p.names.contains name || p.prefixes.any fun start => start.toList.isPrefixOf name.toList

/-- The definition of an exposed name. -/
def define? (p : PlatformRealm) (name : String) : Option Definition :=
  if p.exposes name then some ⟨name, p.label, .platform⟩ else none

end PlatformRealm

end RealmBoot
