import RealmBoot.Proofs.ConflictAbsence

/-!
# The Shape of a Failure

A name that a nest of realms does not define leaves an error that has the shape of the nest. Along
the primary sources every bound fallback realm adds a layer: its own error over that of its primary
source, which becomes the cause, beside that of its secondary source, which is kept as suppressed.
Fallback realms that are not bound leave no trace, and at the bottom stands the error of the first
realm that is no fallback realm. What was searched is told alike on every layer.

## Main results

* `Resolver.exists_errors_of_bound`: what the error of a fallback realm is made of.
* `Resolver.told_of_error`: an error tells what its realm shows, however deep the nest.
* `Resolver.failure_mirrors_layers`: the errors of a failure, from the outermost to the innermost.
-/

namespace RealmBoot

/-! ### Errors with their causes -/

namespace ResolveError

/-- An error, its cause, the cause of that one, and so on. -/
def causes : ResolveError → List ResolveError
  | e@{ cause? := none, .. } => [e]
  | e@{ cause? := some cause, .. } => e :: cause.causes

/-- An error without a cause is all there is to its causes. -/
theorem causes_of_none {e : ResolveError} (h : e.cause? = none) : e.causes = [e] := by
  cases e
  subst h
  rfl

/-- The causes of an error are itself and those of its cause. -/
theorem causes_of_some {e cause : ResolveError} (h : e.cause? = some cause) :
    e.causes = e :: cause.causes := by
  cases e
  subst h
  rfl

/-- The error itself comes first. -/
theorem getElem?_causes_zero (e : ResolveError) : e.causes[0]? = some e := by
  cases h : e.cause? with
  | none => rw [causes_of_none h]; rfl
  | some cause => rw [causes_of_some h]; rfl

end ResolveError

namespace Resolver

/-! ### Along the primary sources -/

/-- The bound fallback realms that are met along the primary sources, outermost first. -/
def layers : Resolver → List Resolver
  | unbound _ _ primary => primary.layers
  | bound label policy primary secondary =>
    bound label policy primary secondary :: primary.layers
  | _ => []

/-- The first realm along the primary sources that is no fallback realm. -/
def bottom : Resolver → Resolver
  | unbound _ _ primary => primary.bottom
  | bound _ _ primary _ => primary.bottom
  | r => r

/-- Whether a resolver is a fallback realm, bound or not. -/
def isFallback : Resolver → Bool
  | unbound .. => true
  | bound .. => true
  | _ => false

/-- All realms of a nest, each before its sources. -/
def nest : Resolver → List Resolver
  | platform realm => [platform realm]
  | root realm => [root realm]
  | child parent realm => child parent realm :: parent.nest
  | unbound label policy primary => unbound label policy primary :: primary.nest
  | bound label policy primary secondary =>
    bound label policy primary secondary :: (primary.nest ++ secondary.nest)

/-- No realm of a nest reports a conflict about a name. -/
def Undisputed (r : Resolver) (name : String) : Prop :=
  ∀ s ∈ r.nest, ∀ e, s.resolve name = .error e → e.isConflict = false

variable {r primary secondary : Resolver} {name label : String} {policy : FallbackPolicy}
  {e : ResolveError}

/-- A resolver is in its own nest. -/
theorem mem_nest_self (r : Resolver) : r ∈ r.nest := by
  cases r <;> exact List.mem_cons_self

/-- The resolver itself does not fail by a conflict. -/
theorem Undisputed.self (h : r.Undisputed name) (he : r.resolve name = .error e) :
    e.isConflict = false :=
  h r r.mem_nest_self e he

/-- What holds of a realm that is not bound holds of its primary source. -/
theorem Undisputed.of_unbound (h : (unbound label policy primary).Undisputed name) :
    primary.Undisputed name :=
  fun s hs => h s (List.mem_cons_of_mem _ hs)

/-- What holds of a bound realm holds of its primary source. -/
theorem Undisputed.of_primary (h : (bound label policy primary secondary).Undisputed name) :
    primary.Undisputed name :=
  fun s hs => h s (List.mem_cons_of_mem _ (List.mem_append_left _ hs))

/-- Every layer is a bound fallback realm. -/
theorem exists_eq_bound_of_mem_layers {layer : Resolver} (h : layer ∈ r.layers) :
    ∃ label policy primary secondary, layer = bound label policy primary secondary := by
  induction r with
  | platform realm => cases h
  | root realm => cases h
  | child parent realm => cases h
  | unbound label policy primary ih => exact ih h
  | bound label policy primary secondary ih =>
      rcases List.mem_cons.mp h with rfl | h
      · exact ⟨_, _, _, _, rfl⟩
      · exact ih h

/-- At the bottom of a nest there is no fallback realm. -/
theorem isFallback_bottom (r : Resolver) : r.bottom.isFallback = false := by
  induction r with
  | platform realm => rfl
  | root realm => rfl
  | child parent realm => rfl
  | unbound label policy primary ih => exact ih
  | bound label policy primary secondary ih => exact ih

/-- A fallback realm shows the directories and archives of the bottom. -/
theorem shown_bottom (r : Resolver) :
    r.bottom.sources = r.sources ∧ r.bottom.inventory = r.inventory := by
  induction r with
  | platform realm => exact ⟨rfl, rfl⟩
  | root realm => exact ⟨rfl, rfl⟩
  | child parent realm => exact ⟨rfl, rfl⟩
  | unbound label policy primary ih => exact ih
  | bound label policy primary secondary ih => exact ih

/-! ### The errors of one realm -/

/-- A realm that is no fallback realm fails in one way only. How its parent fails is not told. -/
theorem error_of_single (hr : r.isFallback = false) (h : r.resolve name = .error e) :
    e = missing r name := by
  cases r with
  | platform realm =>
      rw [resolve] at h
      split at h <;> cases h
      rfl
  | root realm =>
      rw [resolve] at h
      split at h <;> cases h
      rfl
  | child parent realm =>
      rw [resolve] at h
      split at h
      · cases h
      · split at h <;> cases h
        rfl
  | unbound label policy primary => cases hr
  | bound label policy primary secondary => cases hr

/-- **The error of a fallback realm** that is no conflict is made of those of its two sources. -/
theorem exists_errors_of_bound (h : (bound label policy primary secondary).resolve name = .error e)
    (hfree : e.isConflict = false) :
    ∃ e₁ e₂, primary.resolve name = .error e₁ ∧ secondary.resolve name = .error e₂ ∧
      e = bothMissing label (bound label policy primary secondary).chain name e₁ e₂ := by
  cases hprimary : primary.resolve name with
  | ok d =>
      cases hsecondary : secondary.resolve name with
      | error e₂ => simp only [resolve, hprimary, hsecondary, reduceCtorEq] at h
      | ok d' =>
          cases policy with
          | firstDefined => simp only [resolve, hprimary, hsecondary, reduceCtorEq] at h
          | unanimous =>
              simp only [resolve, hprimary, hsecondary] at h
              split at h <;> cases h
              cases hfree
  | error e₁ =>
      cases hsecondary : secondary.resolve name with
      | ok d => simp only [resolve, hprimary, hsecondary, reduceCtorEq] at h
      | error e₂ =>
          simp only [resolve, hprimary, hsecondary] at h
          cases h
          exact ⟨e₁, e₂, rfl, rfl, rfl⟩

/-! ### The whole failure -/

/-- **An error tells what its realm shows.** The directories and archives are handed on from layer
to layer. -/
theorem told_of_error (hfree : r.Undisputed name) (h : r.resolve name = .error e) :
    e.searched = r.sources ∧ e.inventory = r.inventory := by
  induction r generalizing e with
  | platform realm => exact error_of_single rfl h ▸ ⟨rfl, rfl⟩
  | root realm => exact error_of_single rfl h ▸ ⟨rfl, rfl⟩
  | child parent realm => exact error_of_single rfl h ▸ ⟨rfl, rfl⟩
  | unbound label policy primary ih => exact ih hfree.of_unbound h
  | bound label policy primary secondary ih =>
      obtain ⟨e₁, e₂, hprimary, -, rfl⟩ := exists_errors_of_bound h (hfree.self h)
      have htold := ih hfree.of_primary hprimary
      exact htold

/-- At the bottom stands the error of a single realm, under one error for each layer. -/
theorem causes_at_bottom (hfree : r.Undisputed name) (h : r.resolve name = .error e) :
    e.causes.length = r.layers.length + 1 ∧
      e.causes[r.layers.length]? = some (r.bottom.missing name) ∧
      r.bottom.resolve name = .error (r.bottom.missing name) := by
  induction r generalizing e with
  | platform realm =>
      obtain rfl := error_of_single rfl h
      exact ⟨rfl, rfl, h⟩
  | root realm =>
      obtain rfl := error_of_single rfl h
      exact ⟨rfl, rfl, h⟩
  | child parent realm =>
      obtain rfl := error_of_single rfl h
      exact ⟨rfl, rfl, h⟩
  | unbound label policy primary ih => exact ih hfree.of_unbound h
  | bound label policy primary secondary ih =>
      obtain ⟨e₁, e₂, hprimary, -, rfl⟩ := exists_errors_of_bound h (hfree.self h)
      obtain ⟨hlength, hlast, hbottom⟩ := ih hfree.of_primary hprimary
      exact ⟨congrArg (· + 1) hlength, hlast, hbottom⟩

/-- Above it stands the error of each layer: over the error below as its cause, and beside the error
of its secondary source. -/
theorem causes_at_layer (hfree : r.Undisputed name) (h : r.resolve name = .error e) {k : Nat}
    (hlayer : r.layers[k]? = some (bound label policy primary secondary)) :
    ∃ e', secondary.resolve name = .error e' ∧
      e.causes[k]? = some
        { name, realm := label, chain := (bound label policy primary secondary).chain
          searched := r.bottom.sources, inventory := r.bottom.inventory
          cause? := e.causes[k + 1]?, suppressed := [e'] } := by
  induction r generalizing e k with
  | platform realm => cases hlayer
  | root realm => cases hlayer
  | child parent realm => cases hlayer
  | unbound label' policy' primary' ih => exact ih hfree.of_unbound h hlayer
  | bound label' policy' primary' secondary' ih =>
      obtain ⟨e₁, e₂, hprimary, hsecondary, rfl⟩ := exists_errors_of_bound h (hfree.self h)
      cases k with
      | zero =>
          cases hlayer
          obtain ⟨hsearched, hinventory⟩ := told_of_error hfree.of_primary hprimary
          refine ⟨e₂, hsecondary, ?_⟩
          rw [ResolveError.getElem?_causes_zero, ResolveError.causes_of_some rfl,
            List.getElem?_cons_succ, ResolveError.getElem?_causes_zero, (shown_bottom _).1,
            (shown_bottom _).2, bothMissing, hsearched, hinventory]
          rfl
      | succ k => exact ih hfree.of_primary hprimary hlayer

/-- **A failure mirrors the layers of a nest.** If no conflict is part of it, the error has as many
causes below it as bound fallback realms are met along the primary sources, and fallback realms that
are not bound leave none. The error at the height of each of them carries its label and its whole
chain, and has suppressed nothing but the error that its secondary source gives for the name. The
last error is the one that the first realm that is no fallback realm gives itself, with nothing
behind it. On all of them the directories and archives are those of that realm. -/
theorem failure_mirrors_layers (hfree : r.Undisputed name) (h : r.resolve name = .error e) :
    e.causes.length = r.layers.length + 1 ∧
      (∀ layer ∈ r.layers, ∃ label policy primary secondary,
        layer = bound label policy primary secondary) ∧
      (∀ (k : Nat) label policy primary secondary,
        r.layers[k]? = some (bound label policy primary secondary) →
        ∃ e', secondary.resolve name = .error e' ∧
          e.causes[k]? = some
            { name, realm := label, chain := (bound label policy primary secondary).chain
              searched := r.bottom.sources, inventory := r.bottom.inventory
              cause? := e.causes[k + 1]?, suppressed := [e'] }) ∧
      r.bottom.isFallback = false ∧
      ∃ last : ResolveError, e.causes[r.layers.length]? = some last ∧
        r.bottom.resolve name = .error last ∧
        last = { name, realm := r.bottom.label, chain := r.bottom.chain
                 searched := r.bottom.sources, inventory := r.bottom.inventory } := by
  obtain ⟨hlength, hlast, hbottom⟩ := causes_at_bottom hfree h
  exact ⟨hlength, fun layer => exists_eq_bound_of_mem_layers,
    fun k label policy primary secondary => causes_at_layer hfree h,
    r.isFallback_bottom, _, hlast, hbottom, rfl⟩

/-! ### Two layers around a fallback realm that is not bound -/

/-- A realm of one archive. -/
def shelfRealm (label name : String) : Realm :=
  { label, sources := [⟨"/" ++ label⟩], contents := [(⟨[label, "x.jar"]⟩, [name])] }

/-- Between two bound fallback realms stands one that is not bound. -/
def layeredNest : Resolver :=
  .bound "outer" .firstDefined
    (.unbound "waiting" .unanimous
      (.bound "inner" .unanimous (.child (.platform .bootstrap) (shelfRealm "setup" "s.S"))
        (.root (shelfRealm "modules" "m.M"))))
    (.platform .empty)

/-- None of these realms fails by a conflict. -/
theorem layeredNest_undisputed : layeredNest.Undisputed "x.X" := by
  intro s hs e he
  simp only [layeredNest, nest, List.cons_append, List.nil_append, List.mem_cons,
    List.not_mem_nil, or_false] at hs
  rcases hs with rfl | rfl | rfl | rfl | rfl | rfl | rfl <;> cases he <;> rfl

/-- The failure has one error for each bound fallback realm and one for the setup realm below them,
whose directory is told on all of them. The modules are what the inner layer asked in vain. -/
theorem failure_mirrors_layers_layeredNest :
    layeredNest.Undisputed "x.X" ∧
      ∃ e, layeredNest.resolve "x.X" = .error e ∧ e.causes.length = 3 ∧
        e.causes[1]? = some
          { name := "x.X", realm := "inner", chain := ["inner", "setup", "platform", "modules"]
            searched := [⟨"/setup"⟩], inventory := [⟨["setup", "x.jar"]⟩]
            cause? := e.causes[2]?
            suppressed := [missing (.root (shelfRealm "modules" "m.M")) "x.X"] } := by
  obtain ⟨hlength, -, hlayer, -⟩ := failure_mirrors_layers layeredNest_undisputed rfl
  obtain ⟨e', he', hinner⟩ := hlayer 1 _ _ _ _ rfl
  obtain rfl := error_of_single rfl he'
  exact ⟨layeredNest_undisputed, _, rfl, hlength, hinner⟩

end Resolver

end RealmBoot
