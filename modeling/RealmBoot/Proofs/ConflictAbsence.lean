import Mathlib.Control.Monad.Basic
import RealmBoot.Realm.Builder
import RealmBoot.Realm.Resolver

/-!
# A Conflict Counts as Absence

A source that fails says why: the name is not defined, or two sources that have to agree define it
differently. Nothing above it looks at the reason. What a resolver finds depends on what its sources
find and not on how they fail, so a conflict in one source of a realm counts as the absence of the
name, and a definition by the other source is taken as if nobody had disagreed.

## Main results

* `Resolver.toOption_resolve_eq_answer?`: what a resolver finds, with the errors left out.
* `Resolver.Combines.resolve_of_error`: over a source that fails, be it with a conflict, a realm
  finds exactly what its other source finds, and never reports a conflict itself.
* `Resolver.not_conflict_stands`: so conflicts are masked.
-/

namespace RealmBoot

namespace Resolver

variable {name : String} {source other layer r : Resolver} {d : Definition} {e : ResolveError}

/-! ### Answers without reasons -/

/-- What a resolver finds if every failure of a source is like any other. -/
def answer? (name : String) : Resolver → Option Definition
  | platform realm => realm.define? name
  | root realm => realm.define? name
  | child parent realm => (parent.answer? name).or (realm.define? name)
  | unbound _ _ primary => primary.answer? name
  | bound _ .firstDefined primary secondary =>
    (primary.answer? name).or (secondary.answer? name)
  | bound _ .unanimous primary secondary =>
    match primary.answer? name, secondary.answer? name with
    | some d, some d' => if d' = d then some d else none
    | some d, none => some d
    | none, found? => found?

/-- **How a source fails does not count.** Errors left out, what a resolver finds is determined by
what its sources find. -/
theorem toOption_resolve_eq_answer? (r : Resolver) (name : String) :
    (r.resolve name).toOption = r.answer? name := by
  induction r with
  | platform realm =>
      simp only [resolve, answer?]
      cases realm.define? name <;> rfl
  | root realm =>
      simp only [resolve, answer?]
      cases realm.define? name <;> rfl
  | child parent realm ih =>
      simp only [resolve, answer?, ← ih]
      cases parent.resolve name with
      | ok d => rfl
      | error e => cases realm.define? name <;> rfl
  | unbound label policy primary ih => exact ih
  | bound label policy primary secondary ih₁ ih₂ =>
      cases policy with
      | firstDefined =>
          simp only [resolve, answer?, ← ih₁, ← ih₂]
          cases primary.resolve name <;> cases secondary.resolve name <;> rfl
      | unanimous =>
          simp only [resolve, answer?, ← ih₁, ← ih₂]
          cases primary.resolve name with
          | error e => cases secondary.resolve name <;> rfl
          | ok d =>
              cases secondary.resolve name with
              | error e => rfl
              | ok d' =>
                  simp only [Except.toOption]
                  by_cases heq : d' = d <;> simp [heq]

/-- A definition is found exactly if it is the answer. -/
theorem resolve_eq_ok_iff_answer? : r.resolve name = .ok d ↔ r.answer? name = some d := by
  rw [← toOption_resolve_eq_answer?]
  cases r.resolve name <;> simp [Except.toOption]

/-- A source that fails has no answer. -/
theorem answer?_of_error (h : r.resolve name = .error e) : r.answer? name = none := by
  rw [← toOption_resolve_eq_answer?, h]
  rfl

/-! ### Realms over two sources -/

/-- A realm combines two sources: a sealed realm its parent and its own archives, and a bound
unanimous fallback realm either of its sources and the other one. -/
inductive Combines : (source other layer : Resolver) → Prop
  | child (parent : Resolver) (realm : Realm) : Combines parent (.root realm) (.child parent realm)
  | primary (label : String) (source other : Resolver) :
      Combines source other (.bound label .unanimous source other)
  | secondary (label : String) (source other : Resolver) :
      Combines source other (.bound label .unanimous other source)

/-- Over a source without an answer, a realm answers as its other source does. -/
theorem Combines.answer?_of_none (h : Combines source other layer)
    (hnone : source.answer? name = none) : layer.answer? name = other.answer? name := by
  cases h with
  | child parent realm => simp only [answer?, hnone, Option.none_or]
  | primary label => simp only [answer?, hnone]
  | secondary label =>
      simp only [answer?, hnone]
      cases other.answer? name <;> rfl

/-- Over a source that fails, no realm reports a conflict. -/
theorem Combines.not_isConflict (h : Combines source other layer)
    (hfails : source.resolve name = .error e) {e' : ResolveError}
    (he' : layer.resolve name = .error e') : e'.isConflict = false := by
  cases h with
  | child parent realm =>
      simp only [resolve, hfails] at he'
      cases hown : realm.define? name <;> simp only [hown] at he' <;> cases he'
      rfl
  | primary label =>
      simp only [resolve, hfails] at he'
      cases hother : other.resolve name <;> simp only [hother] at he' <;> cases he'
      rfl
  | secondary label =>
      simp only [resolve, hfails] at he'
      cases hother : other.resolve name <;> simp only [hother] at he' <;> cases he'
      rfl

/-- **A conflict counts as absence.** If the parent of a sealed realm, or either source of a bound
unanimous fallback realm, fails, be it with a conflict, the realm finds exactly what its own
archives, or its other source, define. Where those define nothing it fails too, but does not report
a conflict. -/
theorem Combines.resolve_of_error (h : Combines source other layer)
    (hfails : source.resolve name = .error e) :
    (∀ d, layer.resolve name = .ok d ↔ other.resolve name = .ok d) ∧
      ∀ e', layer.resolve name = .error e' → e'.isConflict = false := by
  refine ⟨fun d => ?_, fun e' he' => h.not_isConflict hfails he'⟩
  rw [resolve_eq_ok_iff_answer?, resolve_eq_ok_iff_answer?, h.answer?_of_none]
  exact answer?_of_error hfails

/-! ### Three archives that export one name -/

/-- Three directories with an archive each, all of which export the same name. -/
def disputedFiles : FileSystem :=
  let archive := .file "Export-Types: x.X\n".toUTF8 (.at 0)
  { root := [
      ("a", .directory [("x.jar", archive)]),
      ("b", .directory [("x.jar", archive)]),
      ("c", .directory [("x.jar", archive)])] }

/-- The realm sealed from one of these directories. -/
def disputedRealm (label dir : String) : Realm :=
  { label, sources := [⟨"/" ++ dir⟩], contents := [(⟨[dir, "x.jar"]⟩, ["x.X"])] }

/-- A fallback realm whose two sources disagree. -/
def disputedPair : Resolver :=
  .bound "pair" .unanimous (.root (disputedRealm "first" "a")) (.root (disputedRealm "second" "b"))

/-- A third realm that stands above that fallback realm in each of the ways in which it can. -/
def undisputedLayers : List Resolver :=
  let third := disputedRealm "third" "c"
  [.child disputedPair third, .bound "all" .unanimous disputedPair (.root third),
    .bound "all" .unanimous (.root third) disputedPair]

/-- The definition by the third realm. -/
def undisputed : Definition := ⟨"x.X", "third", .archive ⟨["c", "x.jar"]⟩⟩

/-- The two sources are in conflict over that name. -/
theorem disputedPair_conflict :
    ∃ e, disputedPair.resolve "x.X" = .error e ∧ e.isConflict = true :=
  ⟨_, rfl, rfl⟩

/-- Two of the three realms disagree, and wherever the third stands above them, its definition is
taken. -/
theorem resolve_of_error_disputed :
    (∀ made ∈ [("first", "a"), ("second", "b"), ("third", "c")],
      (({ label := made.1 } : RealmBuilder).collect disputedFiles ⟨"/" ++ made.2⟩ >>= fun b =>
        b.make disputedFiles) = .ok (disputedRealm made.1 made.2)) ∧
      (∃ e, disputedPair.resolve "x.X" = .error e ∧ e.isConflict = true) ∧
      ∀ layer ∈ undisputedLayers, layer.resolve "x.X" = .ok undisputed := by
  refine ⟨by decide, disputedPair_conflict, ?_⟩
  obtain ⟨e, hfails, -⟩ := disputedPair_conflict
  have habove : ∀ layer ∈ undisputedLayers,
      Combines disputedPair (.root (disputedRealm "third" "c")) layer := by
    simp only [undisputedLayers, List.forall_mem_cons, List.not_mem_nil, false_imp_iff,
      implies_true, and_true]
    exact ⟨.child _ _, .primary _ _ _, .secondary _ _ _⟩
  intro layer hlayer
  exact (((habove layer hlayer).resolve_of_error hfails).1 undisputed).mpr rfl

/-- **A conflict does not stand.** A realm over a source that fails with a conflict may return a
definition. -/
theorem not_conflict_stands :
    ¬ ∀ (source other layer : Resolver) (name : String) (e : ResolveError),
      Combines source other layer → source.resolve name = .error e → e.isConflict = true →
      ∀ d, layer.resolve name ≠ .ok d := by
  intro h
  obtain ⟨e, hfails, hconflict⟩ := disputedPair_conflict
  exact h _ _ _ _ _ (.child _ (disputedRealm "third" "c")) hfails hconflict undisputed rfl

end Resolver

end RealmBoot
