import RealmBoot.Proofs.ConflictAbsence

/-!
# Agreement of Two Sources

A fallback realm with both sources treats them differently: the primary source decides, and the
secondary one is asked when that fails, or to check what it found. Under the unanimous policy the
difference does not show in what is found. It shows in a conflict, which says what each source
defines, and a conflict is also the only thing that tells the two policies apart.

## Main results

* `Resolver.resolve_unanimous_comm`: exchanged sources find the same.
* `Resolver.conflict_unanimous_iff`: when the sources are in conflict, and with which definitions.
* `Resolver.disagree_or_policies_agree`: without a conflict both policies find the same or fail.
* `Resolver.unanimous_agreement`: the three of them together.
-/

namespace RealmBoot

namespace Resolver

variable {P S r : Resolver} {name l l' : String} {d d' : Definition}

/-- What is found has the name that was asked for. So the check of what the primary source found
asks the secondary source for the same name. -/
theorem name_of_resolve (h : r.resolve name = .ok d) : d.name = name := by
  have hplatform : ∀ realm : PlatformRealm, realm.define? name = some d → d.name = name := by
    intro realm hd
    obtain ⟨-, hd⟩ := Option.ite_none_right_eq_some.mp hd
    exact (Option.some.inj hd) ▸ rfl
  have hsealed : ∀ realm : Realm, realm.define? name = some d → d.name = name := by
    intro realm hd
    obtain ⟨archive, -, rfl⟩ := Option.map_eq_some_iff.mp hd
    rfl
  rw [resolve_eq_ok_iff_answer?] at h
  induction r with
  | platform realm => exact hplatform realm h
  | root realm => exact hsealed realm h
  | child parent realm ih => exact (Option.or_eq_some_iff.mp h).elim ih fun h => hsealed realm h.2
  | unbound label policy primary ih => exact ih h
  | bound label policy primary secondary ih₁ ih₂ =>
      cases policy with
      | firstDefined => exact (Option.or_eq_some_iff.mp h).elim ih₁ fun h => ih₂ h.2
      | unanimous =>
          rw [answer?] at h
          split at h
          · next hprimary _ =>
              split_ifs at h
              exact ih₁ (hprimary.trans h)
          · next hprimary _ => exact ih₁ (hprimary.trans h)
          · exact ih₂ h

/-! ### One policy -/

/-- Exchanged sources have the same answer under the unanimous policy. -/
theorem answer?_unanimous_comm (P S : Resolver) (name l l' : String) :
    (bound l .unanimous P S).answer? name = (bound l' .unanimous S P).answer? name := by
  rw [answer?, answer?]
  cases P.answer? name with
  | none => cases S.answer? name <;> rfl
  | some d =>
      cases S.answer? name with
      | none => rfl
      | some d' =>
          by_cases heq : d' = d
          · rw [heq]
          · simp only [if_neg heq, if_neg (Ne.symm heq)]

/-- **Exchanged sources find the same under the unanimous policy.** -/
theorem resolve_unanimous_comm (P S : Resolver) (name l l' : String) (d : Definition) :
    (bound l .unanimous P S).resolve name = .ok d ↔
      (bound l' .unanimous S P).resolve name = .ok d := by
  rw [resolve_eq_ok_iff_answer?, resolve_eq_ok_iff_answer?, answer?_unanimous_comm]

/-- **The unanimous policy reports a conflict exactly if both sources find a definition, and not the
same one.** -/
theorem conflict_unanimous_iff :
    (∃ e, (bound l .unanimous P S).resolve name = .error e ∧ e.failure = .conflict d d') ↔
      P.resolve name = .ok d ∧ S.resolve name = .ok d' ∧ d ≠ d' := by
  cases hP : P.resolve name with
  | error e =>
      cases hS : S.resolve name with
      | ok found => simp [resolve, hP, hS]
      | error e' => simp [resolve, hP, hS, bothMissing]
  | ok first =>
      cases hS : S.resolve name with
      | error e' => simp [resolve, hP, hS]
      | ok second =>
          simp only [resolve, hP, hS, Except.ok.injEq]
          by_cases heq : second = first
          · rw [if_pos heq]
            constructor
            · rintro ⟨e, ⟨⟩, -⟩
            · rintro ⟨rfl, rfl, hne⟩
              exact absurd heq.symm hne
          · rw [if_neg heq]
            constructor
            · rintro ⟨e, ⟨⟩, ⟨⟩⟩
              exact ⟨rfl, rfl, Ne.symm heq⟩
            · rintro ⟨rfl, rfl, -⟩
              exact ⟨_, rfl, rfl⟩

/-! ### Two policies -/

/-- **Either the sources disagree, or it makes no difference whether they have to agree:** the same
definition is found or none. -/
theorem disagree_or_policies_agree (P S : Resolver) (name l l' : String) :
    (∃ d d', P.resolve name = .ok d ∧ S.resolve name = .ok d' ∧ d ≠ d') ∨
      ((bound l .unanimous P S).resolve name).toOption =
        ((bound l' .firstDefined P S).resolve name).toOption := by
  simp only [toOption_resolve_eq_answer?, resolve_eq_ok_iff_answer?, answer?]
  cases P.answer? name with
  | none => exact .inr (by cases S.answer? name <;> rfl)
  | some d =>
      cases S.answer? name with
      | none => exact .inr rfl
      | some d' =>
          by_cases heq : d' = d
          · exact .inr (if_pos heq)
          · exact .inl ⟨d, d', rfl, rfl, Ne.symm heq⟩

/-- **Two sources that have to agree are treated alike.** Exchanged, they find the same. A conflict
is reported exactly if they disagree, and it says what either of them defines. Unless they disagree,
a fallback realm finds what it would find if the first definition counted, or it fails as well. -/
theorem unanimous_agreement (P S : Resolver) (name l l' l'' : String) :
    (∀ d, (bound l .unanimous P S).resolve name = .ok d ↔
        (bound l' .unanimous S P).resolve name = .ok d) ∧
      (∀ d d',
        (∃ e, (bound l .unanimous P S).resolve name = .error e ∧ e.failure = .conflict d d') ↔
          P.resolve name = .ok d ∧ S.resolve name = .ok d' ∧ d ≠ d') ∧
      ((∃ d d', P.resolve name = .ok d ∧ S.resolve name = .ok d' ∧ d ≠ d') ∨
        ((bound l .unanimous P S).resolve name).toOption =
          ((bound l'' .firstDefined P S).resolve name).toOption) :=
  ⟨resolve_unanimous_comm P S name l l', fun _ _ => conflict_unanimous_iff,
    disagree_or_policies_agree P S name l l''⟩

end Resolver

end RealmBoot
