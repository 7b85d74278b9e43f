import RealmBoot.Proofs.Agreement
import RealmBoot.Proofs.LaunchLookup

/-!
# Resolution Ends

A node of a realm graph is asked for a name, or for its chain, by asking the nodes it was made over
and the node it is bound to, which ask others in turn. A fallback realm may be bound to a node that
was made after it and is made over the same nodes, so the order of making does not tell why this
ends. It ends because no binding closes a cycle, and on a cycle it would not end.

## Main results

* `RealmGraph.chainWithin_of_unfold`, `RealmGraph.resolveWithin_of_unfold`: asking node after node
  gives what the resolver gives that a node unfolds to.
* `RealmGraph.exists_tree_of_unfold`, `RealmGraph.Unfolds.unique`: the chain lists the nodes of one
  tree.
* `RealmGraph.chainWithin_of_cycle`: a node on a cycle never gives its chain.
* `RealmGraph.resolution_ends`: permitted steps lead to graphs all of whose nodes answer.
-/

namespace RealmBoot

namespace RealmGraph

/-! ### Questions and their nesting -/

/-- The chain of a node, gathered by asking one node after another. There is none if the questions
would be nested deeper than the given number of levels. -/
def chainWithin (g : RealmGraph) : (depth : Nat) → NodeId → Option (List String)
  | 0, _ => none
  | depth + 1, i =>
    match g.nodes[i]? with
    | none => none
    | some (.platform realm) => some [realm.label]
    | some (.sealed realm none) => some [realm.label]
    | some (.sealed realm (some parent)) => (g.chainWithin depth parent).map (realm.label :: ·)
    | some (.fallback label _ primary) => do
      let chain ← g.chainWithin depth primary
      match g.secondary? i with
      | none => some (label :: chain)
      | some secondary =>
        (g.chainWithin depth secondary).map fun chain' => label :: (chain ++ chain')

/-- What a sealed realm answers from its own archives. The chain is asked for only to tell it in an
error. -/
def answerOwn (realm : Realm) (name : String) (chain? : Option (List String)) :
    Option (Except ResolveError Definition) :=
  match realm.define? name with
  | some d => some (.ok d)
  | none => chain?.map fun chain =>
    .error { name, realm := realm.label, chain, searched := realm.sources
             inventory := realm.archives.toList }

/-- What a fallback realm makes of the answer of its primary source. The secondary source is asked
after a failure, or for what was found if it has to agree. -/
def answerBoth (label : String) (policy : FallbackPolicy) (name : String)
    (chain? : Option (List String)) (secondary? : Option NodeId)
    (ask : String → NodeId → Option (Except ResolveError Definition)) :
    Except ResolveError Definition → Option (Except ResolveError Definition)
  | .ok d =>
    match policy, secondary? with
    | .unanimous, some secondary => do
      match ← ask d.name secondary with
      | .error _ => some (.ok d)
      | .ok d' =>
        if d' = d then some (.ok d)
        else chain?.map fun chain => .error (Resolver.disagreement label chain d d')
    | _, _ => some (.ok d)
  | .error e =>
    match secondary? with
    | none => some (.error e)
    | some secondary => do
      match ← ask name secondary with
      | .ok d => some (.ok d)
      | .error e' => chain?.map fun chain => .error (Resolver.bothMissing label chain name e e')

/-- What a node answers for a name, by asking one node after another. There is no answer if the
questions would be nested deeper than the given number of levels. -/
def resolveWithin (g : RealmGraph) :
    (depth : Nat) → (name : String) → NodeId → Option (Except ResolveError Definition)
  | 0, _, _ => none
  | depth + 1, name, i =>
    match g.nodes[i]? with
    | none => none
    | some (.platform realm) =>
      match realm.define? name with
      | some d => some (.ok d)
      | none => some (.error { name, realm := realm.label, chain := [realm.label] })
    | some (.sealed realm none) => answerOwn realm name (g.chainWithin (depth + 1) i)
    | some (.sealed realm (some parent)) => do
      match ← g.resolveWithin depth name parent with
      | .ok d => some (.ok d)
      | .error _ => answerOwn realm name (g.chainWithin (depth + 1) i)
    | some (.fallback label policy primary) => do
      answerBoth label policy name (g.chainWithin (depth + 1) i) (g.secondary? i)
        (g.resolveWithin depth) (← g.resolveWithin depth name primary)

end RealmGraph

/-! ### The tree of a node -/

/-- A node with the trees of further ones. -/
inductive NodeTree where
  | node (root : NodeId) (below : List NodeTree)

namespace NodeTree

/-- The node at the root. -/
def root : NodeTree → NodeId
  | node i _ => i

mutual

/-- The nodes of a tree, each before those below it. -/
def preorder : NodeTree → List NodeId
  | node i below => i :: preorders below

/-- The nodes of several trees, one tree after another. -/
def preorders : List NodeTree → List NodeId
  | [] => []
  | t :: ts => t.preorder ++ preorders ts

end

variable (i : NodeId) (t : NodeTree) (ts : List NodeTree)

/-- A tree is listed with its root first. -/
@[simp] theorem preorder_node : (node i ts).preorder = i :: preorders ts := rfl

/-- No trees list nothing. -/
@[simp] theorem preorders_nil : preorders [] = [] := rfl

/-- Trees are listed one after the other. -/
@[simp] theorem preorders_cons : preorders (t :: ts) = t.preorder ++ preorders ts := rfl

end NodeTree

namespace RealmGraph

variable {g : RealmGraph} {i j : NodeId} {d : Nat} {r : Resolver}
  {next : NodeId → Option Resolver} {t t' : NodeTree}

/-- The nodes a node asks, in their order: its parent, or its primary source and then the secondary
one if it is bound. -/
def asked (g : RealmGraph) (i : NodeId) : List NodeId :=
  match g.nodes[i]? with
  | none => []
  | some (.platform _) => []
  | some (.sealed _ parent?) => parent?.toList
  | some (.fallback _ _ primary) => primary :: (g.secondary? i).toList

/-- A tree has below each node the trees of the nodes that it asks. -/
inductive Unfolds (g : RealmGraph) : NodeTree → Prop
  | node {i : NodeId} {below : List NodeTree} :
      below.map NodeTree.root = g.asked i → (∀ t ∈ below, g.Unfolds t) → g.Unfolds (.node i below)

/-- The ways in which the resolver of a node is put together from those of the nodes it asks. -/
inductive Composed (g : RealmGraph) (next : NodeId → Option Resolver) (i : NodeId) :
    Resolver → Prop
  | platform {realm : PlatformRealm} :
      g.nodes[i]? = some (.platform realm) → Composed g next i (.platform realm)
  | root {realm : Realm} : g.nodes[i]? = some (.sealed realm none) → Composed g next i (.root realm)
  | child {realm : Realm} {parent : NodeId} {p : Resolver} :
      g.nodes[i]? = some (.sealed realm (some parent)) → next parent = some p →
      Composed g next i (.child p realm)
  | unbound {label : String} {policy : FallbackPolicy} {primary : NodeId} {p : Resolver} :
      g.nodes[i]? = some (.fallback label policy primary) → g.secondary? i = none →
      next primary = some p → Composed g next i (.unbound label policy p)
  | bound {label : String} {policy : FallbackPolicy} {primary secondary : NodeId}
      {p q : Resolver} :
      g.nodes[i]? = some (.fallback label policy primary) → g.secondary? i = some secondary →
      next primary = some p → next secondary = some q →
      Composed g next i (.bound label policy p q)

/-- A resolver that is put together is composed of those of the nodes asked. -/
theorem composed_of_assemble (h : g.assemble next i = some r) : g.Composed next i r := by
  unfold assemble at h
  split at h
  · cases h
  · next realm hnode =>
      cases h
      exact .platform hnode
  · next realm hnode =>
      cases h
      exact .root hnode
  · next realm parent hnode =>
      obtain ⟨p, hp, rfl⟩ := Option.map_eq_some_iff.mp h
      exact .child hnode hp
  · next label policy primary hnode =>
      split at h
      · next hunbound =>
          obtain ⟨p, hp, rfl⟩ := Option.map_eq_some_iff.mp h
          exact .unbound hnode hunbound hp
      · next secondary hbound =>
          obtain ⟨p, hp, h⟩ := Option.bind_eq_some_iff.mp h
          obtain ⟨q, hq, h⟩ := Option.bind_eq_some_iff.mp h
          cases h
          exact .bound hnode hbound hp hq

/-- **A node that can be unfolded gives its chain,** with questions nested no deeper than it is
unfolded. -/
theorem chainWithin_of_unfold (h : g.unfold d i = some r) : g.chainWithin d i = some r.chain := by
  induction d generalizing i r with
  | zero => cases h
  | succ d ih =>
      rw [unfold_succ] at h
      cases composed_of_assemble h with
      | platform hnode => simp only [chainWithin, hnode, Resolver.chain]
      | root hnode => simp only [chainWithin, hnode, Resolver.chain]
      | child hnode hp => simp only [chainWithin, hnode, ih hp, Resolver.chain, Option.map_some]
      | unbound hnode hunbound hp =>
          simp only [chainWithin, hnode, ih hp, hunbound, Resolver.chain, Option.bind_eq_bind,
            Option.bind_some]
      | bound hnode hbound hp hq =>
          simp only [chainWithin, hnode, ih hp, hbound, ih hq, Resolver.chain, Option.bind_eq_bind,
            Option.bind_some, Option.map_some]

/-- With the chain at hand, a sealed realm answers from its archives or tells that they do not
define the name. -/
theorem answerOwn_some (realm : Realm) (name : String) (chain : List String) :
    answerOwn realm name (some chain) = some (match realm.define? name with
      | some d => .ok d
      | none => .error { name, realm := realm.label, chain, searched := realm.sources
                         inventory := realm.archives.toList }) := by
  rw [answerOwn]
  cases realm.define? name <;> rfl

/-- A fallback realm whose secondary source answers as a resolver does answers as one itself. What
was found has the name asked for, so asking for what was found is asking for the name. -/
theorem answerBoth_some {label : String} {policy : FallbackPolicy} {secondary : NodeId}
    {ask : String → NodeId → Option (Except ResolveError Definition)} {p q : Resolver}
    (hask : ∀ name, ask name secondary = some (q.resolve name)) (name : String) :
    answerBoth label policy name (some (Resolver.bound label policy p q).chain) (some secondary) ask
      (p.resolve name) = some ((Resolver.bound label policy p q).resolve name) := by
  cases hp : p.resolve name with
  | error e =>
      simp only [answerBoth, hask, Resolver.resolve, hp]
      cases q.resolve name <;> rfl
  | ok d =>
      cases policy with
      | firstDefined =>
          simp only [answerBoth, Resolver.resolve, hp]
          cases q.resolve name <;> rfl
      | unanimous =>
          simp only [answerBoth, hask, Resolver.name_of_resolve hp, Resolver.resolve, hp]
          cases q.resolve name with
          | error e => rfl
          | ok d' => by_cases heq : d' = d <;> simp [heq]

/-- **So it answers for a name.** It asks what its resolver asks, but nothing that it does not
need. -/
theorem resolveWithin_of_unfold (h : g.unfold d i = some r) (name : String) :
    g.resolveWithin d name i = some (r.resolve name) := by
  induction d generalizing i r name with
  | zero => cases h
  | succ d ih =>
      have hchain := chainWithin_of_unfold h
      rw [unfold_succ] at h
      cases composed_of_assemble h with
      | @platform realm hnode =>
          simp only [resolveWithin, hnode, Resolver.resolve]
          cases realm.define? name <;> rfl
      | root hnode =>
          simp only [resolveWithin, hnode, hchain, answerOwn_some, Resolver.resolve]
          rfl
      | @child _ _ p hnode hp =>
          simp only [resolveWithin, hnode, hchain, answerOwn_some, ih hp, Resolver.resolve]
          cases p.resolve name <;> rfl
      | @unbound _ policy _ p hnode hunbound hp =>
          simp only [resolveWithin, hnode, hunbound, ih hp, Resolver.resolve]
          cases p.resolve name <;> cases policy <;> rfl
      | bound hnode hbound hp hq =>
          simp only [resolveWithin, hnode, hchain, hbound, ih hp]
          exact answerBoth_some (ih hq) name

/-! ### Trees of nodes -/

/-- The label of a node is that of what was made. -/
theorem label_of_node {n : RealmNode} (h : g.nodes[i]? = some n) : g.label i = n.label := by
  rw [label, h]
  rfl

/-- A node that can be unfolded is the root of a tree, and its chain lists the labels of the tree's
nodes. -/
theorem exists_tree_of_unfold (h : g.unfold d i = some r) :
    ∃ t, g.Unfolds t ∧ t.root = i ∧ r.chain = t.preorder.map g.label := by
  induction d generalizing i r with
  | zero => cases h
  | succ d ih =>
      rw [unfold_succ] at h
      cases composed_of_assemble h with
      | platform hnode =>
          refine ⟨.node i [], .node ?_ (by simp), rfl, ?_⟩
          · simp [asked, hnode]
          · simp [Resolver.chain, label_of_node hnode, RealmNode.label]
      | root hnode =>
          refine ⟨.node i [], .node ?_ (by simp), rfl, ?_⟩
          · simp [asked, hnode]
          · simp [Resolver.chain, label_of_node hnode, RealmNode.label]
      | child hnode hp =>
          obtain ⟨t, ht, rfl, hchain⟩ := ih hp
          refine ⟨.node i [t], .node ?_ (by simpa using ht), rfl, ?_⟩
          · simp [asked, hnode]
          · simp [Resolver.chain, label_of_node hnode, RealmNode.label, hchain]
      | unbound hnode hunbound hp =>
          obtain ⟨t, ht, rfl, hchain⟩ := ih hp
          refine ⟨.node i [t], .node ?_ (by simpa using ht), rfl, ?_⟩
          · simp [asked, hnode, hunbound]
          · simp [Resolver.chain, label_of_node hnode, RealmNode.label, hchain]
      | bound hnode hbound hp hq =>
          obtain ⟨t, ht, rfl, hchain⟩ := ih hp
          obtain ⟨t', ht', rfl, hchain'⟩ := ih hq
          refine ⟨.node i [t, t'], .node ?_ (by simpa using ⟨ht, ht'⟩), rfl, ?_⟩
          · simp [asked, hnode, hbound]
          · simp [Resolver.chain, label_of_node hnode, RealmNode.label, hchain, hchain']

/-- Trees that are determined by their roots are so one after another. -/
theorem eq_of_map_root {ts ts' : List NodeTree}
    (hroots : ts.map NodeTree.root = ts'.map NodeTree.root)
    (h : ∀ t ∈ ts, ∀ t' ∈ ts', t.root = t'.root → t = t') : ts = ts' := by
  induction ts generalizing ts' with
  | nil => exact (List.map_eq_nil_iff.mp hroots.symm).symm
  | cons t ts ih =>
      obtain ⟨t', ts', rfl, hroot, hrest⟩ := List.map_eq_cons_iff.mp hroots.symm
      rw [h t List.mem_cons_self t' List.mem_cons_self hroot.symm, ih hrest.symm fun t ht t' ht' =>
        h t (List.mem_cons_of_mem _ ht) t' (List.mem_cons_of_mem _ ht')]

/-- A node has no two trees. -/
theorem Unfolds.unique (h : g.Unfolds t) (h' : g.Unfolds t') (hroot : t.root = t'.root) :
    t = t' := by
  induction h generalizing t' with
  | @node i below hbelow _ ih =>
      obtain ⟨hbelow', hall'⟩ := h'
      obtain rfl : i = _ := hroot
      rw [eq_of_map_root (hbelow.trans hbelow'.symm) fun t ht t' ht' => ih t ht (hall' t' ht')]

/-! ### Questions that do not end -/

/-- A node that gives its chain has been given those of the nodes it asks. -/
theorem exists_chainWithin_of_asked {chain : List String}
    (h : g.chainWithin (d + 1) i = some chain) (hj : j ∈ g.asked i) :
    ∃ chain', g.chainWithin d j = some chain' := by
  rw [chainWithin] at h
  rw [asked] at hj
  split at h <;> rename_i hnode <;> simp only [hnode] at hj
  · cases hj
  · cases hj
  · cases hj
  · obtain ⟨chain', hchain', -⟩ := Option.map_eq_some_iff.mp h
    obtain rfl : j = _ := by simpa using hj
    exact ⟨chain', hchain'⟩
  · obtain ⟨chain', hchain', h⟩ := Option.bind_eq_some_iff.mp h
    rcases List.mem_cons.mp hj with rfl | hj
    · exact ⟨chain', hchain'⟩
    · rw [Option.mem_toList] at hj
      simp only [Option.mem_def.mp hj] at h
      obtain ⟨chain'', hchain'', -⟩ := Option.map_eq_some_iff.mp h
      exact ⟨chain'', hchain''⟩

/-- **A cycle is never left.** A node that asks itself through others gives no chain, however deep
the questions may be nested. -/
theorem chainWithin_of_cycle (h : Relation.TransGen (fun i j => j ∈ g.asked i) i i) (d : Nat) :
    g.chainWithin d i = none := by
  induction d generalizing i with
  | zero => rfl
  | succ d ih =>
      obtain ⟨j, hasks, hback⟩ := Relation.TransGen.head'_iff.mp h
      refine Option.eq_none_iff_forall_ne_some.mpr fun chain hchain => ?_
      obtain ⟨chain', hchain'⟩ := exists_chainWithin_of_asked hchain hasks
      rw [ih (Relation.TransGen.tail' hback hasks)] at hchain'
      cases hchain'

/-! ### Questions to a graph that permitted steps lead to -/

/-- A node of a grounded graph is unfolded within as many levels as there are nodes, and deeper than
that there is nothing more. -/
theorem Grounded.exists_unfold (hg : g.Grounded) (hi : i < g.nodes.length) :
    ∃ r, g.resolver? i = some r ∧ ∀ depth ≥ g.nodes.length, g.unfold depth i = some r := by
  obtain ⟨height, hbound, hheight⟩ := hg.exists_height
  obtain ⟨r, hr, -⟩ := hg.unfold_of_height hheight hi (hbound i hi) (hbound i hi)
  refine ⟨r, hr, fun depth hdepth => ?_⟩
  obtain ⟨r', hr', hdeep⟩ :=
    hg.unfold_of_height hheight hi (hbound i hi) ((hbound i hi).trans_le hdepth)
  rw [hdeep, ← hr', hr]

end RealmGraph

namespace Launch

/-- What a launch binds its fallback realm to does not reach it. The extension modules reach the
host and the platform only. -/
theorem permitsAll_assembly (l : Launch) (extensions : Realm) :
    ({} : RealmGraph).PermitsAll (l.assembly extensions) := by
  refine ⟨by simp [RealmGraph.Permits, RealmNode.references],
    by simp [RealmGraph.Permits, RealmNode.references, RealmGraph.step, RealmGraph.add],
    by simp [RealmGraph.Permits, RealmNode.references, RealmGraph.step, RealmGraph.add],
    by simp [RealmGraph.Permits, RealmNode.references, RealmGraph.step, RealmGraph.add],
    by simp [RealmGraph.Permits, RealmNode.references, RealmGraph.step, RealmGraph.add],
    ⟨⟨_, _, _, rfl⟩, by simp [RealmGraph.step, RealmGraph.add], fun _ hreach => ?_⟩, trivial⟩
  have hreached : ∀ i, Relation.ReflTransGen (RealmGraph.Asks (RealmGraph.run {}
      ((l.assembly extensions).take 5))) 4 i → i ∈ [4, 1, 0] := fun i hreach => by
    induction hreach with
    | refl => simp
    | @tail i j _ hasks ih =>
        obtain ⟨n, hnode, hreference | hbound⟩ := hasks
        · simp only [List.mem_cons, List.not_mem_nil, or_false] at ih
          rcases ih with rfl | rfl | rfl <;> obtain rfl := Option.some.inj hnode <;>
            simp_all [RealmNode.references]
        · cases hbound
  simpa using hreached 3 hreach

end Launch

namespace RealmGraph

/-- **Resolution ends.** Let realms be made over earlier ones, and fallback realms be bound to what
does not reach them at that moment, as a launch does with its only one. At every point that such
steps lead to, every node stands for a resolver. Asked for its chain or for any name, it answers as
that resolver does, with questions nested no deeper than there are nodes. The chain lists the labels
of the one tree that the node unfolds to, each node before its parent, or before its primary and
then its secondary source, so that it starts with the label of the node itself. -/
theorem resolution_ends :
    (∀ (l : Launch) (extensions : Realm), ({} : RealmGraph).PermitsAll (l.assembly extensions)) ∧
    ∀ steps, ({} : RealmGraph).PermitsAll steps →
      let g := run {} steps
      ∀ i < g.nodes.length, ∃ r t, g.resolver? i = some r ∧
        (∀ depth ≥ g.nodes.length, g.chainWithin depth i = some r.chain ∧
          ∀ name, g.resolveWithin depth name i = some (r.resolve name)) ∧
        (g.Unfolds t ∧ t.root = i ∧ ∀ t', g.Unfolds t' → t'.root = i → t' = t) ∧
        r.chain = t.preorder.map g.label ∧ r.chain.head? = some (g.label i) := by
  refine ⟨fun l extensions => l.permitsAll_assembly extensions, fun steps h i hi => ?_⟩
  obtain ⟨r, hr, hdeep⟩ := (Grounded.empty.run h).exists_unfold hi
  obtain ⟨⟨j, below⟩, htree, rfl, hchain⟩ := exists_tree_of_unfold hr
  refine ⟨r, .node j below, hr, fun depth hdepth => ?_, ⟨htree, rfl, fun t' h' hroot => ?_⟩,
    hchain, ?_⟩
  · exact ⟨chainWithin_of_unfold (hdeep depth hdepth), resolveWithin_of_unfold (hdeep depth hdepth)⟩
  · exact h'.unique htree hroot
  · rw [hchain]
    rfl

/-- A launch whose realms are empty. -/
def hollowLaunch : Launch :=
  { (default : Launch) with
    realms := {
      platform := .bootstrap
      host := { (default : Realm) with label := "host" }
      setup := { (default : Realm) with label := "setup" } } }

/-- The fallback realm of a launch, which is bound to a realm that is made after it and shares the
host with it, lists the host and the platform for each of its sources. -/
theorem resolution_ends_hollowLaunch :
    let steps := hollowLaunch.assembly { (default : Realm) with label := "extensions" }
    ({} : RealmGraph).PermitsAll steps ∧
      (run {} steps).chainWithin 5 3 = some ["setup+extensions", "setup", "host", "platform",
        "extensions", "host", "platform"] := by
  obtain ⟨hpermits, hends⟩ := resolution_ends
  have h := hpermits hollowLaunch { (default : Realm) with label := "extensions" }
  obtain ⟨r, t, hr, hanswers, -⟩ := hends _ h 3 (by decide)
  obtain rfl := Option.some.inj ((Launch.resolver?_assembly _ _).symm.trans hr)
  exact ⟨h, (hanswers 5 (by decide)).1⟩

end RealmGraph

end RealmBoot
