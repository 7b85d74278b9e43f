import RealmBoot.Proofs.GraphCourse

/-!
# Late Binding

A fallback realm may be handed to other realms before it is bound, and what is handed over is a
node, not what the node stands for at the time. When it is bound therefore makes no difference in
the end: binding each fallback realm as soon as both it and its source are made leaves every node
standing for the same resolver. Only the first attempt counts, and later ones say what it was.

## Main results

* `RealmGraph.early_perm`, `RealmGraph.permitsAll_early`: binding early takes the same steps in
  another order, and closes no cycle on the way.
* `RealmGraph.bind_of_second`: a second attempt to bind a fallback realm fails.
* `RealmGraph.late_binding`: late binding leaves the same resolvers as early binding.
-/

namespace RealmBoot

namespace RealmGraph

variable {g : RealmGraph} {f : NodeId} {made : Nat} {steps : List GraphStep}
  {bindings : List (NodeId × NodeId)} {b : NodeId × NodeId} {bound : List NodeId}

/-! ### Moving bindings -/

/-- The first attempt to bind each fallback realm that is not bound already. -/
def firstBindings : (bound : List NodeId) → List GraphStep → List (NodeId × NodeId)
  | _, [] => []
  | bound, .make _ :: steps => firstBindings bound steps
  | bound, .bind f s :: steps =>
    if f ∈ bound then firstBindings bound steps else (f, s) :: firstBindings (f :: bound) steps

/-- The later of the two nodes of a binding. -/
def later (b : NodeId × NodeId) : Nat := max b.1 b.2

/-- Moves bindings to where the later of their two nodes is made. The first attempt to bind a
fallback realm is taken from its place; attempts that come after it stay. -/
def hoist (bindings : List (NodeId × NodeId)) :
    (made : Nat) → (bound : List NodeId) → List GraphStep → List GraphStep
  | _, _, [] => []
  | made, bound, .make node :: steps =>
    .make node :: (bindings.filter (later · = made)).map .attempt ++
      hoist bindings (made + 1) bound steps
  | made, bound, .bind f s :: steps =>
    if f ∈ bound then .bind f s :: hoist bindings made bound steps
    else hoist bindings made (f :: bound) steps

/-- The same steps, with each fallback realm bound as soon as it and its source are made. -/
def early (steps : List GraphStep) : List GraphStep := hoist (firstBindings [] steps) 0 [] steps

/-- A binding is a first one if no attempt before it was about the same fallback realm. -/
theorem mem_firstBindings :
    b ∈ firstBindings bound steps ↔
      b.1 ∉ bound ∧ (attempts steps).find? (·.1 = b.1) = some b := by
  induction steps generalizing bound with
  | nil => simp [firstBindings]
  | cons t steps ih =>
      cases t with
      | make node => simp [firstBindings, ih]
      | bind f s =>
          rw [firstBindings, attempts_bind, List.find?_cons]
          by_cases heq : f = b.1
          · subst heq
            by_cases hbound : b.1 ∈ bound
            · simp [hbound, ih]
            · simp [hbound, ih, Prod.ext_iff, eq_comm]
          · by_cases hbound : f ∈ bound
            · simp [hbound, ih, heq]
            · have hne : b ≠ (f, s) := fun h => heq (h ▸ rfl)
              simp [hbound, ih, heq, hne, Ne.symm heq]

/-- Moving bindings does not touch the realms made. -/
theorem makes_hoist : makes (hoist bindings made bound steps) = makes steps := by
  induction steps generalizing made bound with
  | nil => rfl
  | cons t steps ih =>
      cases t with
      | make node =>
          rw [hoist, List.cons_append, makes_make, makes_append, makes_map_attempt,
            List.nil_append, ih, makes_make]
      | bind f s =>
          rw [hoist]
          split
          · rw [makes_bind, ih, makes_bind]
          · rw [ih, makes_bind]

/-- What is attempted after the moving was attempted before, or is one of the bindings moved. -/
theorem mem_attempts_hoist (h : b ∈ attempts (hoist bindings made bound steps)) :
    b ∈ bindings ∨ b ∈ attempts steps := by
  induction steps generalizing made bound with
  | nil => cases h
  | cons t steps ih =>
      cases t with
      | make node =>
          rw [hoist, List.cons_append, attempts_make, attempts_append, attempts_map_attempt,
            List.mem_append] at h
          rcases h with h | h
          · exact .inl (List.mem_of_mem_filter h)
          · exact ih h
      | bind f s =>
          rw [hoist] at h
          rw [attempts_bind, List.mem_cons]
          split at h
          · rw [attempts_bind, List.mem_cons] at h
            rcases h with h | h
            · exact .inr (.inl h)
            · exact (ih h).imp id .inr
          · exact (ih h).imp id .inr

/-- Of bindings with different fallback realms, one is found by its fallback realm. -/
theorem find?_of_unique (hb : b ∈ bindings) (hunique : ∀ b' ∈ bindings, b'.1 = b.1 → b' = b) :
    bindings.find? (·.1 = b.1) = some b := by
  cases h : bindings.find? (·.1 = b.1) with
  | none => simpa using List.find?_eq_none.mp h b hb
  | some b' =>
      rw [hunique b' (List.mem_of_find?_eq_some h) (by simpa using List.find?_some h)]

/-- A binding that is moved is the first attempt about its fallback realm after the moving, as it
was before. It is moved forward, since a step never names a node before it is made. -/
theorem find?_attempts_hoist (hb : b ∈ bindings)
    (hunique : ∀ b' ∈ bindings, b'.1 = b.1 → b' = b) (h : g.PermitsAll steps)
    (hfirst : (attempts steps).find? (·.1 = b.1) = some b) (hbound : b.1 ∉ bound)
    (hmade : g.nodes.length ≤ later b) :
    (attempts (hoist bindings g.nodes.length bound steps)).find? (·.1 = b.1) = some b := by
  induction steps generalizing g bound with
  | nil => cases hfirst
  | cons t steps ih =>
      obtain ⟨hpermits, hrest⟩ := h
      cases t with
      | make node =>
          rw [hoist, List.cons_append, attempts_make, attempts_append, attempts_map_attempt,
            List.find?_append]
          by_cases hhere : later b = g.nodes.length
          · rw [find?_of_unique (b := b) (List.mem_filter.mpr ⟨hb, by simpa using hhere⟩)
              fun b' hb' => hunique b' (List.mem_of_mem_filter hb'), Option.some_or]
          · have hnot : (bindings.filter (later · = g.nodes.length)).find? (·.1 = b.1) = none := by
              rw [List.find?_eq_none]
              intro b' hb' heq
              obtain ⟨hmem, hmax⟩ := List.mem_filter.mp hb'
              rw [hunique b' hmem (by simpa using heq)] at hmax
              exact hhere (by simpa using hmax)
            have hlength : (g.step (.make node)).nodes.length = g.nodes.length + 1 := by
              simp [step, add]
            rw [hnot, Option.none_or, ← hlength]
            exact ih hrest hfirst hbound (by omega)
      | bind f s =>
          have hlength : (g.step (.bind f s)).nodes.length = g.nodes.length := by
            rw [step_bind_nodes]
          rw [attempts_bind] at hfirst
          by_cases heq : f = b.1
          · -- The attempt itself stands after both nodes were made.
            obtain ⟨hfallback, hs, -⟩ := hpermits
            rw [List.find?_cons_of_pos (by simpa using heq)] at hfirst
            obtain rfl := Option.some.inj hfirst
            exact absurd (Nat.max_lt.mpr ⟨hfallback.lt_length, hs⟩) (Nat.not_lt_of_le hmade)
          · rw [List.find?_cons_of_neg (by simpa using heq)] at hfirst
            rw [hoist, ← hlength]
            split
            · rw [attempts_bind, List.find?_cons_of_neg (by simpa using heq)]
              exact ih hrest hfirst hbound (hlength ▸ hmade)
            · refine ih hrest hfirst ?_ (hlength ▸ hmade)
              rw [List.mem_cons, not_or]
              exact ⟨Ne.symm heq, hbound⟩

/-- Binding early attempts the same first for every fallback realm. -/
theorem find?_attempts_early (h : ({} : RealmGraph).PermitsAll steps) (f : NodeId) :
    (attempts (early steps)).find? (·.1 = f) = (attempts steps).find? (·.1 = f) := by
  cases hfirst : (attempts steps).find? (·.1 = f) with
  | none =>
      rw [List.find?_eq_none] at hfirst ⊢
      intro b hb
      rcases mem_attempts_hoist hb with hmoved | hb
      · exact hfirst b (List.mem_of_find?_eq_some (mem_firstBindings.mp hmoved).2)
      · exact hfirst b hb
  | some b =>
      obtain rfl : b.1 = f := by simpa using List.find?_some hfirst
      have hunique : ∀ b' ∈ firstBindings [] steps, b'.1 = b.1 → b' = b := fun b' hb' heq => by
        have hfirst' := (mem_firstBindings.mp hb').2
        rw [heq, hfirst] at hfirst'
        exact (Option.some.inj hfirst').symm
      exact find?_attempts_hoist (g := {}) (mem_firstBindings.mpr ⟨by simp, hfirst⟩) hunique h
        hfirst (by simp) (Nat.zero_le _)

/-! ### The same steps -/

/-- An attempt names two nodes that are made by the end. -/
theorem later_lt_of_placed (h : Placed made steps) (hb : b ∈ attempts steps) :
    later b < made + (makes steps).length := by
  induction steps generalizing made with
  | nil => cases hb
  | cons t steps ih =>
      cases t with
      | make node =>
          rw [makes_make, List.length_cons]
          have hlt := ih h.2 hb
          omega
      | bind f s =>
          rw [attempts_bind, List.mem_cons] at hb
          rw [makes_bind]
          rcases hb with rfl | hb
          · exact Nat.lt_add_right _ (Nat.max_lt.mpr h.1)
          · exact ih h.2 hb

/-- The bindings whose later node is one of a number of nodes that are made next. -/
def ripe (bindings : List (NodeId × NodeId)) (made count : Nat) : List (NodeId × NodeId) :=
  bindings.filter fun b => made ≤ later b ∧ later b < made + count

/-- Of these bindings, those that wait for the first of the nodes come before the others. -/
theorem ripe_succ (bindings : List (NodeId × NodeId)) (made count : Nat) :
    (bindings.filter (later · = made) ++ ripe bindings (made + 1) count).Perm
      (ripe bindings made (count + 1)) := by
  have hhere : (ripe bindings made (count + 1)).filter (later · = made) =
      bindings.filter (later · = made) := by
    rw [ripe, List.filter_filter]
    refine List.filter_congr fun b _ => ?_
    rw [Bool.eq_iff_iff]
    simp only [Bool.and_eq_true, decide_eq_true_eq]
    omega
  have hafter : (ripe bindings made (count + 1)).filter (fun b => !decide (later b = made)) =
      ripe bindings (made + 1) count := by
    rw [ripe, ripe, List.filter_filter]
    refine List.filter_congr fun b _ => ?_
    rw [Bool.eq_iff_iff]
    simp only [Bool.and_eq_true, Bool.not_eq_true', decide_eq_true_eq, decide_eq_false_iff_not]
    omega
  rw [← hhere, ← hafter]
  exact List.filter_append_perm _ _

/-- Moving bindings trades the first attempts for the bindings whose later node is made on the
way. -/
theorem hoist_perm :
    (hoist bindings made bound steps ++ (firstBindings bound steps).map GraphStep.attempt).Perm
      (steps ++ (ripe bindings made (makes steps).length).map GraphStep.attempt) := by
  induction steps generalizing made bound with
  | nil =>
      have hnone : ripe bindings made 0 = [] := by
        rw [ripe, List.filter_eq_nil_iff]
        intro b _
        simp only [decide_eq_true_eq]
        omega
      rw [makes_nil, List.length_nil, hnone]
      exact .refl _
  | cons t steps ih =>
      cases t with
      | make node =>
          rw [hoist, firstBindings, makes_make, List.length_cons, List.cons_append,
            List.cons_append, List.cons_append, List.append_assoc]
          refine .cons _ ((ih.append_left _).trans ?_)
          refine (List.perm_append_comm_assoc _ _ _).trans (.append_left steps ?_)
          rw [← List.map_append]
          exact (ripe_succ bindings made _).map _
      | bind f s =>
          rw [hoist, firstBindings, makes_bind]
          split
          · exact ih.cons _
          · exact List.perm_middle.trans (ih.cons _)

/-- **Binding early takes the same steps.** -/
theorem early_perm (h : ({} : RealmGraph).PermitsAll steps) : (early steps).Perm steps := by
  have hall : ripe (firstBindings [] steps) 0 (makes steps).length = firstBindings [] steps := by
    rw [ripe, List.filter_eq_self]
    intro b hb
    have hattempt := List.mem_of_find?_eq_some (mem_firstBindings.mp hb).2
    have hlt := later_lt_of_placed h.placed hattempt
    simpa using hlt
  have hperm : (early steps ++ (firstBindings [] steps).map GraphStep.attempt).Perm
      (steps ++ (ripe (firstBindings [] steps) 0 (makes steps).length).map GraphStep.attempt) :=
    hoist_perm
  rw [hall] at hperm
  exact (List.perm_append_right_iff _).mp hperm

/-- Moving bindings leaves every step after the nodes it names. -/
theorem placed_hoist (h : Placed made steps) : Placed made (hoist bindings made bound steps) := by
  induction steps generalizing made bound with
  | nil => trivial
  | cons t steps ih =>
      cases t with
      | make node =>
          refine ⟨h.1, ?_⟩
          have hmoved : ∀ moved : List (NodeId × NodeId), (∀ b ∈ moved, later b = made) →
              Placed (made + 1) (moved.map .attempt ++ hoist bindings (made + 1) bound steps) := by
            intro moved hlater
            induction moved with
            | nil => exact ih h.2
            | cons b moved ih =>
                rw [List.forall_mem_cons] at hlater
                exact ⟨Nat.max_lt.mp (Nat.lt_succ_of_le hlater.1.le), ih hlater.2⟩
          exact hmoved _ fun b hb => by simpa using (List.mem_filter.mp hb).2
      | bind f s =>
          rw [hoist]
          split
          · exact ⟨h.1, ih h.2⟩
          · exact ih h.2

/-! ### The same end -/

/-- Binding early makes the same nodes. -/
theorem early_nodes (steps : List GraphStep) :
    (run {} (early steps)).nodes = (run {} steps).nodes := by
  rw [run_nodes, run_nodes, early, makes_hoist]

/-- It binds the same realms to the same sources. -/
theorem early_secondary? (h : ({} : RealmGraph).PermitsAll steps) (f : NodeId) :
    (run {} (early steps)).secondary? f = (run {} steps).secondary? f := by
  rw [run_secondary?, run_secondary?, find?_attempts_early h]

/-- **Binding early closes no cycle** that binding late does not close. -/
theorem permitsAll_early (h : ({} : RealmGraph).PermitsAll steps) :
    ({} : RealmGraph).PermitsAll (early steps) := by
  refine permitsAll_of_grounded (placed_hoist h.placed) (fun b hb => ?_)
    ((Grounded.empty.run h).congr (early_nodes steps) (early_secondary? h))
  have hattempt : b ∈ attempts steps := by
    rcases mem_attempts_hoist hb with hmoved | hb
    · exact List.mem_of_find?_eq_some (mem_firstBindings.mp hmoved).2
    · exact hb
  obtain ⟨label, policy, primary, hnode⟩ := h.isFallback hattempt
  exact ⟨label, policy, primary, early_nodes steps ▸ hnode⟩

/-- A second attempt to bind a fallback realm fails, says what the first one bound it to, and
changes nothing. -/
theorem bind_of_second {before mid : List GraphStep} (hbefore : ∀ b ∈ attempts before, b.1 ≠ f)
    (s s' : NodeId) :
    let g := run {} (before ++ .bind f s :: mid)
    g.bind f s' = .error (.alreadyBound (g.label f) (g.label s)) ∧ g.step (.bind f s') = g := by
  have hnone : (attempts before).find? (·.1 = f) = none :=
    List.find?_eq_none.mpr fun b hb => by simpa using hbefore b hb
  have hbound : (run {} (before ++ .bind f s :: mid)).secondary? f = some s := by
    rw [run_secondary?, attempts_append, attempts_bind, List.find?_append, hnone,
      List.find?_cons_of_pos (by simp)]
    rfl
  exact ⟨bind_of_bound hbound s', step_bind_of_bound hbound s'⟩

/-- **Late binding is early binding.** Let realms be made and fallback realms be bound, without
closing a cycle. An attempt to bind a fallback realm that is bound already fails, names what it is
bound to, and changes nothing. If each fallback realm is bound instead as soon as it and its source
are made, the same steps are taken in an order that is permitted too, and in the end every node
stands for the same resolver, so that it has the same chain and resolves every name alike. -/
theorem late_binding (h : ({} : RealmGraph).PermitsAll steps) :
    (∀ before f s mid s' after, steps = before ++ .bind f s :: mid ++ .bind f s' :: after →
      (∀ b ∈ attempts before, b.1 ≠ f) →
      let g := run {} (before ++ .bind f s :: mid)
      g.bind f s' = .error (.alreadyBound (g.label f) (g.label s)) ∧
        g.step (.bind f s') = g) ∧
    (early steps).Perm steps ∧ ({} : RealmGraph).PermitsAll (early steps) ∧
    ∀ i < (run {} steps).nodes.length, ∃ r, (run {} steps).resolver? i = some r ∧
      (run {} (early steps)).resolver? i = some r := by
  refine ⟨fun before f s mid s' after _ hbefore => bind_of_second hbefore s s', early_perm h,
    permitsAll_early h, fun i hi => ?_⟩
  obtain ⟨r, hr⟩ := (Grounded.empty.run h).exists_resolver? hi
  refine ⟨r, hr, ?_⟩
  rw [resolver?, early_nodes, unfold_congr (early_nodes steps) (early_secondary? h)]
  exact hr

/-! ### A realm made over a fallback realm that is bound later -/

/-- A realm of one archive that exports one name. -/
def exportingRealm (label name : String) : Realm :=
  { label, sources := [], contents := [(⟨[label ++ ".jar"]⟩, [name])] }

/-- A fallback realm above the platform is handed to a realm above it, then bound, and then tried to
be bound again. -/
def handedOver : List GraphStep :=
  [.make (.platform .bootstrap), .make (.sealed (exportingRealm "modules" "x.X") none),
    .make (.fallback "late" .firstDefined 0),
    .make (.sealed (exportingRealm "above" "x.X") (some 2)), .bind 2 1, .bind 2 0]

/-- Each of these steps may be taken when its turn comes. -/
theorem handedOver_permitted : ({} : RealmGraph).PermitsAll handedOver := by
  refine ⟨by simp [Permits, RealmNode.references], by simp [Permits, RealmNode.references],
    by simp [Permits, RealmNode.references, step, add],
    by simp [Permits, RealmNode.references, step, add],
    ⟨⟨_, _, _, rfl⟩, by decide, fun _ hreach => ?_⟩, ⟨⟨_, _, _, rfl⟩, by decide, fun h => ?_⟩,
    trivial⟩
  · -- A realm without a parent asks nothing.
    rcases hreach.cases_head with heq | ⟨j, ⟨n, hnode, hasked⟩, -⟩
    · cases heq
    · obtain rfl := Option.some.inj hnode
      rcases hasked with hreference | hbound
      · cases hreference
      · cases hbound
  · cases h

/-- The realm above finds through the fallback realm what that was bound to, as if it had been bound
before; its own archive does not count. -/
theorem late_binding_handedOver :
    early handedOver = [.make (.platform .bootstrap),
      .make (.sealed (exportingRealm "modules" "x.X") none),
      .make (.fallback "late" .firstDefined 0), .bind 2 1,
      .make (.sealed (exportingRealm "above" "x.X") (some 2)), .bind 2 0] ∧
    ∃ r, (run {} handedOver).resolver? 3 = some r ∧
      (run {} (early handedOver)).resolver? 3 = some r ∧
      r.resolve "x.X" = .ok ⟨"x.X", "modules", .archive ⟨["modules.jar"]⟩⟩ := by
  obtain ⟨-, -, -, hsame⟩ := late_binding handedOver_permitted
  obtain ⟨r, hr, hr'⟩ := hsame 3 (by decide)
  refine ⟨rfl, r, hr, hr', ?_⟩
  have hresolver : (run {} handedOver).resolver? 3 = some (.child (.bound "late" .firstDefined
      (.platform .bootstrap) (.root (exportingRealm "modules" "x.X")))
        (exportingRealm "above" "x.X")) := rfl
  obtain rfl := Option.some.inj (hr.symm.trans hresolver)
  rfl

end RealmGraph

end RealmBoot
