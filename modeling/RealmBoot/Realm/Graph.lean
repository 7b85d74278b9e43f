import RealmBoot.Realm.Resolver

/-!
# Realm Graphs

Realms are made one after another, each over earlier ones, and the secondary source of a fallback
realm is named later. A realm graph records what was made as a list of nodes that never change, and
beside it a write-once table of bindings. Whoever holds a node sees a binding that is made
afterwards, because a node is turned into a resolver only when it is asked.

* `RealmGraph.resolver?`: the resolver a node stands for at this moment. A node that reaches itself
  stands for none.
* `RealmGraph.bind`: names the secondary source of a fallback realm, once.
-/

namespace RealmBoot

/-- Why a fallback realm cannot be bound. -/
inductive BindError where
  /-- It is bound already. -/
  | alreadyBound (fallback bound : String)
deriving DecidableEq, Repr

/-- The text of a bind error. -/
def BindError.message : BindError → String
  | alreadyBound fallback bound =>
    "secondary realm of `" ++ fallback ++ "` is already bound to `" ++ bound ++ "`"

/-- The number of a node in the order of making. -/
abbrev NodeId := Nat

/-- A realm over earlier ones. -/
inductive RealmNode where
  /-- The platform realm. -/
  | platform (realm : PlatformRealm)
  /-- A sealed realm with the parent it may have. -/
  | sealed (realm : Realm) (parent? : Option NodeId)
  /-- A fallback realm. -/
  | fallback (label : String) (policy : FallbackPolicy) (primary : NodeId)
deriving Inhabited

/-- The label of a node. -/
def RealmNode.label : RealmNode → String
  | platform realm => realm.label
  | sealed realm _ => realm.label
  | fallback label .. => label

/-- The realms made so far and the secondary sources named so far. -/
structure RealmGraph where
  /-- The realms, in the order of making. -/
  nodes : List RealmNode := []
  /-- Fallback realms with their secondary sources. -/
  bindings : List (NodeId × NodeId) := []
deriving Inhabited

namespace RealmGraph

/-- The label of a node; one that was never made has an empty label. -/
def label (g : RealmGraph) (i : NodeId) : String := (g.nodes[i]?.map (·.label)).getD ""

/-- The secondary source of a fallback realm, if it is bound. -/
def secondary? (g : RealmGraph) (i : NodeId) : Option NodeId :=
  (g.bindings.find? (·.1 = i)).map (·.2)

/-- The graph with one more node, and that node's number. -/
def add (g : RealmGraph) (n : RealmNode) : RealmGraph × NodeId :=
  ({ g with nodes := g.nodes ++ [n] }, g.nodes.length)

/-- Names the secondary source of a fallback realm. A second attempt changes nothing. -/
def bind (g : RealmGraph) (fallback secondary : NodeId) : Except BindError RealmGraph :=
  match g.secondary? fallback with
  | some bound => .error (.alreadyBound (g.label fallback) (g.label bound))
  | none => .ok { g with bindings := g.bindings ++ [(fallback, secondary)] }

/-- The resolver a node stands for, as far as it is no deeper than the given number of levels. -/
def unfold (g : RealmGraph) : (depth : Nat) → NodeId → Option Resolver
  | 0, _ => none
  | depth + 1, i =>
    match g.nodes[i]? with
    | none => none
    | some (.platform realm) => some (.platform realm)
    | some (.sealed realm none) => some (.root realm)
    | some (.sealed realm (some parent)) => (g.unfold depth parent).map (.child · realm)
    | some (.fallback label policy primary) =>
      match g.secondary? i with
      | none => (g.unfold depth primary).map (.unbound label policy)
      | some secondary => do
        let first ← g.unfold depth primary
        let second ← g.unfold depth secondary
        some (.bound label policy first second)

/-- The resolver a node stands for. Where no node reaches itself, no path is longer than the list of
nodes. -/
def resolver? (g : RealmGraph) (i : NodeId) : Option Resolver := g.unfold g.nodes.length i

/-- Adding a node binds nothing. -/
@[simp] theorem secondary?_add (g : RealmGraph) (n : RealmNode) (i : NodeId) :
    (g.add n).1.secondary? i = g.secondary? i := rfl

/-- A successful bind names the source of that fallback realm and leaves the others alone. -/
theorem secondary?_bind {g g' : RealmGraph} {f s : NodeId} (h : g.bind f s = .ok g') (i : NodeId) :
    g'.secondary? i = if i = f then some s else g.secondary? i := by
  unfold bind at h
  split at h
  · cases h
  · next hn =>
    cases h
    simp only [secondary?, List.find?_append]
    simp only [secondary?, Option.map_eq_none_iff] at hn
    by_cases hi : i = f
    · subst hi
      simp [hn]
    · simp [hi, Ne.symm hi]

end RealmGraph

end RealmBoot
