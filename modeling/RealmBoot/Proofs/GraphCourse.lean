import Mathlib.Algebra.Order.BigOperators.Group.List
import Mathlib.Algebra.Order.Group.Nat
import Mathlib.Data.Finset.Card
import Mathlib.Logic.Relation
import RealmBoot.Realm.Graph

/-!
# The Course of a Realm Graph

A realm graph grows step by step: a realm is made over earlier ones, or a fallback realm is bound.
As long as no binding closes a cycle, every node can be unfolded into a resolver. The depth that
bounds the unfolding is scaffolding: it is always enough, and the resolver of a node can be told
from those of the nodes it asks without it.

## Main results

* `RealmGraph.run_nodes`, `RealmGraph.run_secondary?`: what is left of a sequence of steps. Of
  several attempts to bind a fallback realm the first counts.
* `RealmGraph.Grounded.run`: permitted steps keep the graph grounded.
* `RealmGraph.Grounded.exists_resolver?`: every node of a grounded graph stands for a resolver.
* `RealmGraph.Grounded.resolver?_eq`: which one it is, whatever the depth.
* `RealmGraph.permitsAll_of_grounded`: steps are permitted if no cycle is left in the end.
-/

namespace RealmBoot

/-- The earlier nodes a node is made over. -/
def RealmNode.references : RealmNode → List NodeId
  | platform _ => []
  | sealed _ parent? => parent?.toList
  | fallback _ _ primary => [primary]

/-- A step in the growth of a realm graph. -/
inductive GraphStep where
  /-- Makes a realm. -/
  | make (node : RealmNode)
  /-- Tries to bind a fallback realm. -/
  | bind (fallback secondary : NodeId)

/-- The step that tries to bind a fallback realm. -/
def GraphStep.attempt (b : NodeId × NodeId) : GraphStep := .bind b.1 b.2

/-- The realms that a sequence of steps makes. -/
def makes (steps : List GraphStep) : List RealmNode :=
  steps.filterMap fun
    | .make node => some node
    | .bind .. => none

/-- The attempts of a sequence of steps to bind a fallback realm, each with the source to bind it
to. -/
def attempts (steps : List GraphStep) : List (NodeId × NodeId) :=
  steps.filterMap fun
    | .make _ => none
    | .bind fallback secondary => some (fallback, secondary)

section Steps

variable (node : RealmNode) (f s : NodeId) (steps steps' : List GraphStep)

/-- No steps make no nodes. -/
@[simp] theorem makes_nil : makes [] = [] := rfl

/-- A step that makes a node makes that one first. -/
@[simp] theorem makes_make : makes (.make node :: steps) = node :: makes steps := rfl

/-- A step that binds makes no node. -/
@[simp] theorem makes_bind : makes (.bind f s :: steps) = makes steps := rfl

/-- Steps in two parts make what the one part makes and then what the other does. -/
@[simp] theorem makes_append : makes (steps ++ steps') = makes steps ++ makes steps' :=
  List.filterMap_append

/-- No steps bind nothing. -/
@[simp] theorem attempts_nil : attempts [] = [] := rfl

/-- A step that makes a node binds nothing. -/
@[simp] theorem attempts_make : attempts (.make node :: steps) = attempts steps := rfl

/-- A step that binds is the first attempt. -/
@[simp] theorem attempts_bind : attempts (.bind f s :: steps) = (f, s) :: attempts steps := rfl

/-- Steps in two parts attempt what the one part does and then what the other does. -/
@[simp] theorem attempts_append :
    attempts (steps ++ steps') = attempts steps ++ attempts steps' :=
  List.filterMap_append

/-- Attempts make no nodes. -/
@[simp] theorem makes_map_attempt (bindings : List (NodeId × NodeId)) :
    makes (bindings.map .attempt) = [] := by
  induction bindings with
  | nil => rfl
  | cons b bindings ih => exact ih

/-- Attempts are the attempts they are made of. -/
@[simp] theorem attempts_map_attempt (bindings : List (NodeId × NodeId)) :
    attempts (bindings.map .attempt) = bindings := by
  induction bindings with
  | nil => rfl
  | cons b bindings ih => exact congrArg (b :: ·) ih

end Steps

namespace RealmGraph

variable {g : RealmGraph} {i j f s : NodeId} {n : RealmNode} {d d' : Nat} {t : GraphStep}
  {steps : List GraphStep} {next next' : NodeId → Option Resolver}

/-! ### Steps -/

/-- Takes one step. A fallback realm that is bound already stays as it is. -/
def step (g : RealmGraph) : GraphStep → RealmGraph
  | .make node => (g.add node).1
  | .bind fallback secondary => (g.bind fallback secondary).toOption.getD g

/-- Takes several steps one after another. -/
def run (g : RealmGraph) (steps : List GraphStep) : RealmGraph := steps.foldl step g

/-- A fallback realm that is not bound can be bound. -/
theorem bind_of_unbound (h : g.secondary? f = none) :
    g.bind f s = .ok { g with bindings := g.bindings ++ [(f, s)] } := by
  rw [bind, h]

/-- One that is bound cannot be bound again; the error names both realms. -/
theorem bind_of_bound (h : g.secondary? f = some s) (s' : NodeId) :
    g.bind f s' = .error (.alreadyBound (g.label f) (g.label s)) := by
  rw [bind, h]

/-- Binding what is bound already changes nothing. -/
theorem step_bind_of_bound (h : g.secondary? f = some s) (s' : NodeId) :
    g.step (.bind f s') = g := by
  rw [step, bind_of_bound h]
  rfl

/-- Binding what is not bound yet adds to the bindings. -/
theorem step_bind_of_unbound (h : g.secondary? f = none) (s : NodeId) :
    g.step (.bind f s) = { g with bindings := g.bindings ++ [(f, s)] } := by
  rw [step, bind_of_unbound h]
  rfl

/-- Binding leaves the nodes as they are. -/
theorem step_bind_nodes (g : RealmGraph) (f s : NodeId) : (g.step (.bind f s)).nodes = g.nodes := by
  cases h : g.secondary? f with
  | none => rw [step_bind_of_unbound h]
  | some bound => rw [step_bind_of_bound h]

/-- An attempt to bind a fallback realm binds it if it is not bound yet, and no other. -/
theorem step_bind_secondary? (g : RealmGraph) (f' s f : NodeId) :
    (g.step (.bind f' s)).secondary? f =
      (g.secondary? f).or (if f' = f then some s else none) := by
  cases h : g.secondary? f' with
  | some bound =>
      rw [step_bind_of_bound h]
      by_cases heq : f' = f
      · subst heq
        rw [h, Option.some_or]
      · rw [if_neg heq, Option.or_none]
  | none =>
      rw [step_bind_of_unbound h, secondary?_bind (bind_of_unbound h)]
      by_cases heq : f' = f
      · subst heq
        rw [if_pos rfl, if_pos rfl, h, Option.none_or]
      · rw [if_neg (Ne.symm heq), if_neg heq, Option.or_none]

/-- The realms left by a sequence of steps are those it makes, after those that were there. -/
theorem run_nodes (g : RealmGraph) (steps : List GraphStep) :
    (g.run steps).nodes = g.nodes ++ makes steps := by
  induction steps generalizing g with
  | nil => simp [run]
  | cons t steps ih =>
      have hrest : (g.run (t :: steps)).nodes = ((g.step t).run steps).nodes := rfl
      rw [hrest, ih]
      cases t with
      | make node => simp [step, add]
      | bind f s => rw [step_bind_nodes, makes_bind]

/-- **The first attempt counts.** After a sequence of steps a fallback realm is bound as it was
before, or else as the first attempt of the sequence to bind it says. -/
theorem run_secondary? (g : RealmGraph) (steps : List GraphStep) (f : NodeId) :
    (g.run steps).secondary? f =
      (g.secondary? f).or (((attempts steps).find? (·.1 = f)).map (·.2)) := by
  induction steps generalizing g with
  | nil => simp [run]
  | cons t steps ih =>
      have hrest : (g.run (t :: steps)).secondary? f = ((g.step t).run steps).secondary? f := rfl
      rw [hrest, ih]
      cases t with
      | make node => rfl
      | bind f' s =>
          rw [step_bind_secondary?, Option.or_assoc, attempts_bind, List.find?_cons]
          by_cases heq : f' = f <;> simp [heq]

/-! ### Unfolding -/

/-- A node asks what it was made over, and what it is bound to. -/
def Asks (g : RealmGraph) (i j : NodeId) : Prop :=
  ∃ n, g.nodes[i]? = some n ∧ (j ∈ n.references ∨ g.secondary? i = some j)

/-- The resolver of a node, put together from those of the nodes it asks. -/
def assemble (g : RealmGraph) (next : NodeId → Option Resolver) (i : NodeId) : Option Resolver :=
  match g.nodes[i]? with
  | none => none
  | some (.platform realm) => some (.platform realm)
  | some (.sealed realm none) => some (.root realm)
  | some (.sealed realm (some parent)) => (next parent).map (.child · realm)
  | some (.fallback label policy primary) =>
    match g.secondary? i with
    | none => (next primary).map (.unbound label policy)
    | some secondary => do
      let first ← next primary
      let second ← next secondary
      some (.bound label policy first second)

/-- A node is unfolded by what it asks, unfolded one level less deep. -/
theorem unfold_succ (g : RealmGraph) (d : Nat) (i : NodeId) :
    g.unfold (d + 1) i = g.assemble (g.unfold d) i := rfl

/-- Only the nodes a node asks matter for its resolver. -/
theorem assemble_congr (h : ∀ j, g.Asks i j → next j = next' j) :
    g.assemble next i = g.assemble next' i := by
  unfold assemble
  split
  · rfl
  · rfl
  · rfl
  · next realm parent hnode =>
      rw [h parent ⟨_, hnode, .inl (by simp [RealmNode.references])⟩]
  · next label policy primary hnode =>
      rw [h primary ⟨_, hnode, .inl (by simp [RealmNode.references])⟩]
      split
      · rfl
      · next secondary hbound => rw [h secondary ⟨_, hnode, .inr hbound⟩]

/-- A node has a resolver if the nodes it asks have. -/
theorem exists_assemble (hi : i < g.nodes.length) (h : ∀ j, g.Asks i j → ∃ r, next j = some r) :
    ∃ r, g.assemble next i = some r := by
  have hnode : g.nodes[i]? = some g.nodes[i] := List.getElem?_eq_getElem hi
  unfold assemble
  split
  · next hnone => simp [hnone] at hnode
  · exact ⟨_, rfl⟩
  · exact ⟨_, rfl⟩
  · next realm parent hnode =>
      obtain ⟨r, hr⟩ := h parent ⟨_, hnode, .inl (by simp [RealmNode.references])⟩
      exact ⟨_, by rw [hr]; rfl⟩
  · next label policy primary hnode =>
      obtain ⟨r, hr⟩ := h primary ⟨_, hnode, .inl (by simp [RealmNode.references])⟩
      rw [hr]
      split
      · exact ⟨_, rfl⟩
      · next secondary hbound =>
          obtain ⟨r', hr'⟩ := h secondary ⟨_, hnode, .inr hbound⟩
          rw [hr']
          exact ⟨_, rfl⟩

/-- Graphs with the same nodes and the same bindings unfold to the same resolvers. -/
theorem unfold_congr {h : RealmGraph} (hnodes : h.nodes = g.nodes)
    (hsecondary : ∀ f, h.secondary? f = g.secondary? f) (d : Nat) (i : NodeId) :
    h.unfold d i = g.unfold d i := by
  induction d generalizing i with
  | zero => rfl
  | succ d ih =>
      have hnext : h.unfold d = g.unfold d := funext ih
      rw [unfold_succ, unfold_succ, assemble, assemble, hnodes, hsecondary, hnext]

/-- What asks others is one of the nodes. -/
theorem Asks.lt_length (h : g.Asks i j) : i < g.nodes.length := by
  obtain ⟨n, hnode, -⟩ := h
  exact (List.getElem?_eq_some_iff.mp hnode).1

/-- What a node asks it asks after further steps. -/
theorem Asks.run (h : g.Asks i j) (steps : List GraphStep) : (g.run steps).Asks i j := by
  have hi := h.lt_length
  obtain ⟨n, hnode, hasked⟩ := h
  refine ⟨n, by rw [run_nodes, List.getElem?_append_left hi, hnode], hasked.imp id fun hbound => ?_⟩
  rw [run_secondary?, hbound, Option.some_or]

/-! ### Groundedness -/

/-- A graph in which no node reaches itself: nodes are made over earlier ones, bindings are between
nodes that were made, and what a node asks ranks below it. -/
structure Grounded (g : RealmGraph) : Prop where
  /-- A node is made over earlier ones. -/
  earlier : ∀ {i : NodeId} {n : RealmNode} {j : NodeId},
    g.nodes[i]? = some n → j ∈ n.references → j < i
  /-- Only nodes that were made are bound, and to such. -/
  made : ∀ {f s}, g.secondary? f = some s → f < g.nodes.length ∧ s < g.nodes.length
  /-- What a node asks ranks below it. -/
  ranked : ∃ rank : NodeId → Nat, ∀ {i j}, g.Asks i j → rank j < rank i

/-- Groundedness is a matter of the nodes and the bindings alone. -/
theorem Grounded.congr {h : RealmGraph} (hg : g.Grounded) (hnodes : h.nodes = g.nodes)
    (hsecondary : ∀ f, h.secondary? f = g.secondary? f) : h.Grounded where
  earlier hnode := hg.earlier (hnodes ▸ hnode)
  made hbound := by
    rw [hnodes]
    exact hg.made (hsecondary _ ▸ hbound)
  ranked := by
    simp only [Asks, hnodes, hsecondary]
    exact hg.ranked

/-- In a grounded graph what is asked is one of the nodes too. -/
theorem Grounded.asked_lt_length (hg : g.Grounded) (h : g.Asks i j) : j < g.nodes.length := by
  have hi := h.lt_length
  obtain ⟨n, hnode, hreference | hbound⟩ := h
  · exact (hg.earlier hnode hreference).trans hi
  · exact (hg.made hbound).2

/-- No node reaches itself. -/
theorem Grounded.acyclic (hg : g.Grounded) (h : g.Asks i j) :
    ¬ Relation.ReflTransGen g.Asks j i := by
  obtain ⟨rank, hrank⟩ := hg.ranked
  have hle : ∀ {k}, Relation.ReflTransGen g.Asks j k → rank k ≤ rank j := fun hreach => by
    induction hreach with
    | refl => exact le_rfl
    | tail _ hasks ih => exact (hrank hasks).le.trans ih
  exact fun hreach => absurd (hrank h) (Nat.not_lt_of_le (hle hreach))

/-- The height of a node, counted by the nodes that rank below it, is less than the number of
nodes. -/
theorem Grounded.exists_height (hg : g.Grounded) :
    ∃ height : NodeId → Nat, (∀ i < g.nodes.length, height i < g.nodes.length) ∧
      ∀ i j, g.Asks i j → height j < height i := by
  obtain ⟨rank, hrank⟩ := hg.ranked
  refine ⟨fun i => ((Finset.range g.nodes.length).filter (rank · < rank i)).card,
    fun i hi => ?_, fun i j h => ?_⟩
  · have hless : (Finset.range g.nodes.length).filter (rank · < rank i) ⊂
        Finset.range g.nodes.length :=
      Finset.filter_ssubset.mpr ⟨i, Finset.mem_range.mpr hi, lt_irrefl _⟩
    simpa using Finset.card_lt_card hless
  · refine Finset.card_lt_card (Finset.ssubset_iff_of_subset ?_ |>.mpr ⟨j, ?_, ?_⟩)
    · intro k hk
      rw [Finset.mem_filter] at hk ⊢
      exact ⟨hk.1, hk.2.trans (hrank h)⟩
    · exact Finset.mem_filter.mpr ⟨Finset.mem_range.mpr (hg.asked_lt_length h), hrank h⟩
    · simp

/-- Unfolding a node deeper than its height gives a resolver, and no other if it goes deeper
still. -/
theorem Grounded.unfold_of_height (hg : g.Grounded) {height : NodeId → Nat}
    (hheight : ∀ i j, g.Asks i j → height j < height i) (hi : i < g.nodes.length)
    (hd : height i < d) (hd' : height i < d') :
    ∃ r, g.unfold d i = some r ∧ g.unfold d' i = some r := by
  induction d generalizing i d' with
  | zero => omega
  | succ d ih =>
      obtain ⟨d', rfl⟩ := Nat.exists_eq_succ_of_ne_zero (Nat.ne_of_gt (Nat.zero_lt_of_lt hd'))
      have hbelow : ∀ j, g.Asks i j → ∃ r, g.unfold d j = some r ∧ g.unfold d' j = some r :=
        fun j h => by
          have hlt := hheight i j h
          exact ih (hg.asked_lt_length h) (by omega) (by omega)
      obtain ⟨r, hr⟩ := exists_assemble hi fun j h => (hbelow j h).imp fun _ hr => hr.1
      refine ⟨r, by rw [unfold_succ, hr], ?_⟩
      rw [unfold_succ, ← hr]
      refine assemble_congr fun j h => ?_
      obtain ⟨r', hr', hr''⟩ := hbelow j h
      rw [hr', hr'']

/-- **Every node stands for a resolver.** -/
theorem Grounded.exists_resolver? (hg : g.Grounded) (hi : i < g.nodes.length) :
    ∃ r, g.resolver? i = some r := by
  obtain ⟨height, hbound, hheight⟩ := hg.exists_height
  obtain ⟨r, hr, -⟩ := hg.unfold_of_height hheight hi (hbound i hi) (hbound i hi)
  exact ⟨r, hr⟩

/-- **The depth is scaffolding.** The resolver of a node is put together from the resolvers of the
nodes it asks. -/
theorem Grounded.resolver?_eq (hg : g.Grounded) (i : NodeId) :
    g.resolver? i = g.assemble g.resolver? i := by
  obtain ⟨height, hbound, hheight⟩ := hg.exists_height
  by_cases hi : i < g.nodes.length
  · obtain ⟨d, hd⟩ := Nat.exists_eq_succ_of_ne_zero (Nat.ne_of_gt (Nat.zero_lt_of_lt hi))
    rw [resolver?, hd, unfold_succ]
    refine assemble_congr fun j h => ?_
    have hlt := hheight i j h
    have hi' := hbound i hi
    have hj := hbound j (hg.asked_lt_length h)
    obtain ⟨r, hr, hr'⟩ :=
      hg.unfold_of_height (d := d) hheight (hg.asked_lt_length h) (by omega) hj
    rw [hr, resolver?, hr']
  · have hnode : g.nodes[i]? = none := List.getElem?_eq_none (Nat.le_of_not_lt hi)
    have hassemble : ∀ next, g.assemble next i = none := fun next => by rw [assemble, hnode]
    rw [hassemble, resolver?]
    cases g.nodes.length with
    | zero => rfl
    | succ d => rw [unfold_succ, hassemble]

/-! ### Permitted steps -/

/-- A node is a fallback realm. -/
def IsFallback (g : RealmGraph) (f : NodeId) : Prop :=
  ∃ label policy primary, g.nodes[f]? = some (.fallback label policy primary)

/-- A fallback realm is one of the nodes. -/
theorem IsFallback.lt_length (h : g.IsFallback f) : f < g.nodes.length := by
  obtain ⟨label, policy, primary, hnode⟩ := h
  exact (List.getElem?_eq_some_iff.mp hnode).1

/-- A fallback realm stays what it is. -/
theorem IsFallback.run (h : g.IsFallback f) (steps : List GraphStep) :
    (g.run steps).IsFallback f := by
  have hf := h.lt_length
  obtain ⟨label, policy, primary, hnode⟩ := h
  exact ⟨label, policy, primary, by rw [run_nodes, List.getElem?_append_left hf, hnode]⟩

/-- A realm may be made over earlier ones, and a fallback realm may be bound to any node that was
made, unless that closes a cycle. -/
def Permits (g : RealmGraph) : GraphStep → Prop
  | .make node => ∀ j ∈ node.references, j < g.nodes.length
  | .bind f s => g.IsFallback f ∧ s < g.nodes.length ∧
      (g.secondary? f = none → ¬ Relation.ReflTransGen g.Asks s f)

/-- Each of several steps may be taken when its turn comes. -/
def PermitsAll (g : RealmGraph) : List GraphStep → Prop
  | [] => True
  | t :: steps => g.Permits t ∧ (g.step t).PermitsAll steps

/-- A graph without nodes is grounded. -/
theorem Grounded.empty : ({} : RealmGraph).Grounded where
  earlier h := by simp at h
  made h := by simp [secondary?] at h
  ranked := ⟨fun _ => 0, fun ⟨_, hnode, _⟩ => by simp at hnode⟩

/-- The realm that is made comes after the others. -/
theorem getElem?_add (g : RealmGraph) (node : RealmNode) (i : NodeId) :
    (g.add node).1.nodes[i]? = if i = g.nodes.length then some node else g.nodes[i]? := by
  rw [add, List.getElem?_append]
  rcases Nat.lt_trichotomy i g.nodes.length with hi | rfl | hi
  · rw [if_pos hi, if_neg (Nat.ne_of_lt hi)]
  · simp
  · rw [if_neg (Nat.lt_asymm hi), if_neg (Nat.ne_of_gt hi), List.getElem?_eq_none hi.le]
    simpa using Nat.sub_ne_zero_of_lt hi

/-- Making a realm leaves the others asking what they asked, and asks what it is made over. -/
theorem Grounded.asks_add (hg : g.Grounded) (node : RealmNode) :
    (g.add node).1.Asks i j ↔ g.Asks i j ∨ i = g.nodes.length ∧ j ∈ node.references := by
  have hunbound : g.secondary? g.nodes.length = none :=
    Option.eq_none_iff_forall_ne_some.mpr fun s h => lt_irrefl _ (hg.made h).1
  simp only [Asks, secondary?_add, getElem?_add]
  by_cases heq : i = g.nodes.length
  · subst heq
    simp [hunbound]
  · simp [heq]

/-- A realm made over earlier ones ranks above them. -/
theorem Grounded.add (hg : g.Grounded) {node : RealmNode}
    (h : ∀ j ∈ node.references, j < g.nodes.length) : (g.add node).1.Grounded where
  earlier {i n j} hnode hreference := by
    rw [getElem?_add] at hnode
    split at hnode
    · next heq =>
        obtain rfl := Option.some.inj hnode
        exact heq ▸ h j hreference
    · exact hg.earlier hnode hreference
  made hbound := by
    obtain ⟨hf, hs⟩ := hg.made hbound
    simp only [RealmGraph.add, List.length_append, List.length_singleton]
    exact ⟨Nat.lt_succ_of_lt hf, Nat.lt_succ_of_lt hs⟩
  ranked := by
    obtain ⟨rank, hrank⟩ := hg.ranked
    refine ⟨fun i => if i = g.nodes.length then (node.references.map rank).sum + 1 else rank i,
      fun {i j} hasks => ?_⟩
    beta_reduce
    rcases (hg.asks_add node).mp hasks with hasks | ⟨rfl, hreference⟩
    · have hi := hasks.lt_length
      have hj := hg.asked_lt_length hasks
      rw [if_neg (Nat.ne_of_lt hi), if_neg (Nat.ne_of_lt hj)]
      exact hrank hasks
    · rw [if_pos rfl, if_neg (Nat.ne_of_lt (h j hreference))]
      exact Nat.lt_succ_of_le (List.le_sum_of_mem (List.mem_map_of_mem hreference))

/-- Binding a fallback realm makes it ask one more node. -/
theorem asks_bind (hunbound : g.secondary? f = none) (hf : f < g.nodes.length) :
    (g.step (.bind f s)).Asks i j ↔ g.Asks i j ∨ i = f ∧ j = s := by
  simp only [Asks, step_bind_nodes, step_bind_secondary?]
  by_cases heq : f = i
  · subst heq
    have hnode : g.nodes[f]? = some g.nodes[f] := List.getElem?_eq_getElem hf
    simp [hnode, hunbound, eq_comm]
  · simp [heq, Ne.symm heq]

/-- A fallback realm may be bound to what does not reach it. Whatever reaches the fallback realm
then ranks above what it is bound to. -/
theorem Grounded.bind (hg : g.Grounded) (hunbound : g.secondary? f = none)
    (hf : f < g.nodes.length) (hs : s < g.nodes.length)
    (hcycle : ¬ Relation.ReflTransGen g.Asks s f) : (g.step (.bind f s)).Grounded := by
  refine ⟨fun hnode => hg.earlier (step_bind_nodes g f s ▸ hnode), fun {f' s'} hbound => ?_, ?_⟩
  · rw [step_bind_secondary?, Option.or_eq_some_iff] at hbound
    rw [step_bind_nodes]
    rcases hbound with hbound | ⟨-, hbound⟩
    · exact hg.made hbound
    · obtain ⟨rfl, rfl⟩ : f = f' ∧ s = s' := by simpa using hbound
      exact ⟨hf, hs⟩
  · obtain ⟨rank, hrank⟩ := hg.ranked
    classical
    refine ⟨fun i => if Relation.ReflTransGen g.Asks i f then rank i + (rank s + 1) else rank i,
      fun {i j} hasks => ?_⟩
    beta_reduce
    rcases (asks_bind hunbound hf).mp hasks with hasks | ⟨rfl, rfl⟩
    · have hlt := hrank hasks
      by_cases hj : Relation.ReflTransGen g.Asks j f
      · rw [if_pos hj, if_pos (.head hasks hj)]
        omega
      · rw [if_neg hj]
        split <;> omega
    · rw [if_neg hcycle, if_pos .refl]
      omega

/-- **A permitted step closes no cycle.** -/
theorem Grounded.step (hg : g.Grounded) (h : g.Permits t) : (g.step t).Grounded := by
  cases t with
  | make node => exact hg.add h
  | bind f s =>
      obtain ⟨hfallback, hs, hcycle⟩ := h
      cases hbound : g.secondary? f with
      | none => exact hg.bind hbound hfallback.lt_length hs (hcycle hbound)
      | some bound => rwa [step_bind_of_bound hbound]

/-- **Permitted steps keep a graph grounded.** -/
theorem Grounded.run (hg : g.Grounded) (h : g.PermitsAll steps) : (g.run steps).Grounded := by
  induction steps generalizing g with
  | nil => exact hg
  | cons t steps ih => exact ih (hg.step h.1) h.2

/-! ### Permitted steps, looked at from the end -/

/-- Steps that name only nodes made before them, counted from those that are there. -/
def Placed : (made : Nat) → List GraphStep → Prop
  | _, [] => True
  | made, .make node :: steps => (∀ j ∈ node.references, j < made) ∧ Placed (made + 1) steps
  | made, .bind f s :: steps => (f < made ∧ s < made) ∧ Placed made steps

/-- Permitted steps name only nodes that are there when their turn comes. -/
theorem PermitsAll.placed (h : g.PermitsAll steps) : Placed g.nodes.length steps := by
  induction steps generalizing g with
  | nil => trivial
  | cons t steps ih =>
      obtain ⟨hpermits, hrest⟩ := h
      have hplaced := ih hrest
      cases t with
      | make node =>
          simp only [step, RealmGraph.add, List.length_append, List.length_singleton] at hplaced
          exact ⟨hpermits, hplaced⟩
      | bind f s =>
          obtain ⟨hfallback, hs, -⟩ := hpermits
          rw [step_bind_nodes] at hplaced
          exact ⟨⟨hfallback.lt_length, hs⟩, hplaced⟩

/-- Only fallback realms are bound. -/
theorem PermitsAll.isFallback (h : g.PermitsAll steps) {b : NodeId × NodeId}
    (hb : b ∈ attempts steps) : (g.run steps).IsFallback b.1 := by
  induction steps generalizing g with
  | nil => cases hb
  | cons t steps ih =>
      obtain ⟨hpermits, hrest⟩ := h
      cases t with
      | make node => exact ih hrest hb
      | bind f s =>
          rw [attempts_bind, List.mem_cons] at hb
          rcases hb with rfl | hb
          · exact hpermits.1.run (.bind f s :: steps)
          · exact ih hrest hb

/-- **A cycle would stay.** Steps that name only nodes made before them are permitted if they leave
a grounded graph, since what closes a cycle on the way closes it for good. -/
theorem permitsAll_of_grounded (hplaced : Placed g.nodes.length steps)
    (hfallback : ∀ b ∈ attempts steps, (g.run steps).IsFallback b.1)
    (hg : (g.run steps).Grounded) : g.PermitsAll steps := by
  induction steps generalizing g with
  | nil => trivial
  | cons t steps ih =>
      cases t with
      | make node =>
          obtain ⟨hreferences, hrest⟩ := hplaced
          refine ⟨hreferences, ih ?_ hfallback hg⟩
          simpa [step, RealmGraph.add] using hrest
      | bind f s =>
          obtain ⟨⟨hf, hs⟩, hrest⟩ := hplaced
          rw [attempts_bind, List.forall_mem_cons] at hfallback
          obtain ⟨⟨label, policy, primary, hnode⟩, hfallback⟩ := hfallback
          have hnow := hnode
          rw [run_nodes, List.getElem?_append_left hf] at hnow
          refine ⟨⟨⟨label, policy, primary, hnow⟩, hs, fun hunbound hreach => ?_⟩,
            ih (by rwa [step_bind_nodes]) hfallback hg⟩
          have hasks : (g.run (.bind f s :: steps)).Asks f s := by
            refine ⟨_, hnode, .inr ?_⟩
            rw [run_secondary?, hunbound]
            simp
          exact hg.acyclic hasks (Relation.ReflTransGen.mono (fun _ _ h => h.run _) _ _ hreach)

end RealmGraph

end RealmBoot
