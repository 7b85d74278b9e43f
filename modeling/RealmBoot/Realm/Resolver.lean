import RealmBoot.Realm.Failure
import RealmBoot.Realm.Platform
import RealmBoot.Realm.Policy
import RealmBoot.Realm.Sealed

/-!
# Resolvers

What can be asked for a name: the platform realm, a sealed realm with or without a parent, and a
fallback realm, which combines a primary source with a secondary one once that is bound. A sealed
realm asks its parent before its own archives, so what is defined closer to the platform stays
authoritative.

* `Resolver.resolve`: the definition of a name, or a resolve error.
* `Resolver.lookups`: the realms that may define names, in the order in which they are asked.
-/

namespace RealmBoot

/-- A source of definitions. -/
inductive Resolver where
  /-- The platform realm. -/
  | platform (realm : PlatformRealm)
  /-- A sealed realm without a parent. -/
  | root (realm : Realm)
  /-- A sealed realm below a parent. -/
  | child (parent : Resolver) (realm : Realm)
  /-- A fallback realm that has no secondary source yet. -/
  | unbound (label : String) (policy : FallbackPolicy) (primary : Resolver)
  /-- A fallback realm with both sources. -/
  | bound (label : String) (policy : FallbackPolicy) (primary secondary : Resolver)
deriving Inhabited

namespace Resolver

/-- A sealed realm with the parent it may have. -/
def ofRealm (parent? : Option Resolver) (realm : Realm) : Resolver :=
  match parent? with
  | none => root realm
  | some parent => child parent realm

/-- The label of a resolver. -/
def label : Resolver → String
  | platform realm => realm.label
  | root realm => realm.label
  | child _ realm => realm.label
  | unbound label .. => label
  | bound label .. => label

/-- The label of a fallback realm that was given none. -/
def defaultLabel (primary : String) : String := primary ++ "+fallback"

/-- The labels of the realms a resolver consults, nearest first. -/
def chain : Resolver → List String
  | platform realm => [realm.label]
  | root realm => [realm.label]
  | child parent realm => realm.label :: parent.chain
  | unbound label _ primary => label :: primary.chain
  | bound label _ primary secondary => label :: (primary.chain ++ secondary.chain)

/-- The archives a resolver holds itself; a fallback realm shows those of its primary source. -/
def inventory : Resolver → List Location
  | platform _ => []
  | root realm => realm.archives.toList
  | child _ realm => realm.archives.toList
  | unbound _ _ primary => primary.inventory
  | bound _ _ primary _ => primary.inventory

/-- The directories a resolver was collected from; a fallback realm shows those of its primary
source. -/
def sources : Resolver → List Path
  | platform _ => []
  | root realm => realm.sources
  | child _ realm => realm.sources
  | unbound _ _ primary => primary.sources
  | bound _ _ primary _ => primary.sources

/-- The error of a resolver that does not find a name itself. -/
def missing (r : Resolver) (name : String) : ResolveError :=
  { name, realm := r.label, chain := r.chain, searched := r.sources, inventory := r.inventory }

/-- The error of a fallback realm both of whose sources fail. -/
def bothMissing (label : String) (chain : List String) (name : String)
    (primary secondary : ResolveError) : ResolveError :=
  { name, realm := label, chain, searched := primary.searched, inventory := primary.inventory,
    cause? := some primary, suppressed := [secondary] }

/-- The error of a fallback realm whose sources disagree. -/
def disagreement (label : String) (chain : List String) (primary secondary : Definition) :
    ResolveError :=
  { name := primary.name, realm := label, failure := .conflict primary secondary, chain }

/-- The definition a resolver gives for a name. A fallback realm whose sources have to agree holds
what its primary source found against what the secondary source has under the name of that
definition. Here the secondary source is asked for `name`, which is the same: what is found has the
name that was asked for (`Resolver.name_of_resolve`). -/
def resolve (name : String) : Resolver → Except ResolveError Definition
  | platform realm =>
    match realm.define? name with
    | some d => .ok d
    | none => .error (missing (platform realm) name)
  | root realm =>
    match realm.define? name with
    | some d => .ok d
    | none => .error (missing (root realm) name)
  | child parent realm =>
    match parent.resolve name with
    | .ok d => .ok d
    | .error _ =>
      match realm.define? name with
      | some d => .ok d
      | none => .error (missing (child parent realm) name)
  | unbound _ _ primary => primary.resolve name
  | bound label policy primary secondary =>
    let chain := (bound label policy primary secondary).chain
    match primary.resolve name, secondary.resolve name, policy with
    | .ok d, .ok d', .unanimous => if d' = d then .ok d else .error (disagreement label chain d d')
    | .ok d, _, _ => .ok d
    | .error _, .ok d, _ => .ok d
    | .error e, .error e', _ => .error (bothMissing label chain name e e')

/-- A realm that may define names itself. -/
inductive Lookup where
  /-- The platform realm. -/
  | platform (realm : PlatformRealm)
  /-- A sealed realm. -/
  | sealed (realm : Realm)

/-- The definition of a name by one realm alone. -/
def Lookup.define? (name : String) : Lookup → Option Definition
  | platform realm => realm.define? name
  | sealed realm => realm.define? name

/-- The realms a resolver asks, first to last. -/
def lookups : Resolver → List Lookup
  | platform realm => [.platform realm]
  | root realm => [.sealed realm]
  | child parent realm => parent.lookups ++ [.sealed realm]
  | unbound _ _ primary => primary.lookups
  | bound _ _ primary secondary => primary.lookups ++ secondary.lookups

/-- A view of a sealed realm for inspection. -/
structure Snapshot where
  /-- The label. -/
  label : String
  /-- The label of the parent. -/
  parent? : Option String
  /-- The labels of the realms consulted, nearest first. -/
  chain : List String
  /-- The directories collected. -/
  sources : List Path
  /-- The archives held. -/
  archives : List Location
  /-- The names the archives export. -/
  exports : List String
deriving DecidableEq, Repr

/-- The snapshot of a sealed realm below the parent it may have. -/
def snapshot (parent? : Option Resolver) (realm : Realm) : Snapshot :=
  { label := realm.label
    parent? := parent?.map label
    chain := (ofRealm parent? realm).chain
    sources := realm.sources
    archives := realm.archives.toList
    exports := realm.exports.toList }

end Resolver

end RealmBoot
