import RealmBoot.Launch.World

/-!
# Outcomes of Computations

What the program does is written in two ways: as an `Except` value, or as a computation on a state
that hands the state on when it fails (`Action`, `SiteAction`, `Effect`). This module gives the
equations by which both are taken apart, so that no later proof opens a monad.

## Main results

* `except_bind_eq_ok_iff`: when a chain of fallible steps succeeds.
* `outcome_bind`: a computation goes on from the state its first part left, unless that failed.
* `Keeps`: a computation keeps a property of the state, whether it fails or not.
* `outcome_mapFailure`, `outcome_effect_mapFailure`: reporting failures as other ones changes
  nothing else.
-/

namespace RealmBoot

variable {ε ε' σ α β : Type}

/-- A chain of two fallible steps succeeds exactly if both do. -/
theorem except_bind_eq_ok_iff {x : Except ε α} {f : α → Except ε β} {b : β} :
    x >>= f = .ok b ↔ ∃ a, x = .ok a ∧ f a = .ok b := by
  cases x with
  | error e => simp [bind, Except.bind]
  | ok a => simp [bind, Except.bind]

/-- What is done with a result does not change whether there is one. -/
theorem except_map_eq_ok_iff {x : Except ε α} {f : α → β} {b : β} :
    x.map f = .ok b ↔ ∃ a, x = .ok a ∧ f a = b := by
  cases x with
  | error e => simp [Except.map]
  | ok a => simp [Except.map]

/-- A function on the result leaves a failure as it is. -/
theorem except_map_eq_error_iff {x : Except ε α} {f : α → β} {e : ε} :
    x.map f = .error e ↔ x = .error e := by
  cases x with
  | error e => simp [Except.map]
  | ok a => simp [Except.map]

/-- A result that comes out as an option is a success. -/
theorem except_eq_ok_of_toOption {x : Except ε α} {a : α} (h : x.toOption = some a) :
    x = .ok a := by
  cases x with
  | error e => cases h
  | ok b =>
      cases h
      rfl

/-! ### Computations on a state -/

/-- What a computation gives in a state, together with the state it leaves. -/
def outcome (x : ExceptT ε (StateM σ) α) (s : σ) : Except ε α × σ := x.run.run s

/-- An outcome is known but for the state that is left if its result is known. -/
theorem outcome_of_result {x : ExceptT ε (StateM σ) α} {s : σ} {result : Except ε α}
    (h : (outcome x s).1 = result) : outcome x s = (result, (outcome x s).2) := by
  rw [← h]

/-- A value is given and nothing is changed. -/
@[simp] theorem outcome_pure (a : α) (s : σ) :
    outcome (pure a : ExceptT ε (StateM σ) α) s = (.ok a, s) := rfl

/-- A failure changes nothing. -/
@[simp] theorem outcome_throw (e : ε) (s : σ) :
    outcome (throw e : ExceptT ε (StateM σ) α) s = (.error e, s) := rfl

/-- Looking at the state changes nothing. -/
@[simp] theorem outcome_get (s : σ) :
    outcome (get : ExceptT ε (StateM σ) σ) s = (.ok s, s) := rfl

/-- Setting the state leaves that state. -/
@[simp] theorem outcome_set (s s' : σ) :
    outcome (set s' : ExceptT ε (StateM σ) PUnit) s = (.ok ⟨⟩, s') := rfl

/-- The second part of a computation starts from the state the first part left, unless the first
part failed. -/
theorem outcome_bind (x : ExceptT ε (StateM σ) α) (f : α → ExceptT ε (StateM σ) β) (s : σ) :
    outcome (x >>= f) s =
      match outcome x s with
      | (.ok a, s') => outcome (f a) s'
      | (.error e, s') => (.error e, s') := by
  have key : outcome (x >>= f) s = (ExceptT.bindCont f (outcome x s).1).run (outcome x s).2 := rfl
  rw [key]
  cases outcome x s with
  | mk result s' => cases result <;> rfl

/-- A first part that succeeds can be taken before the rest. -/
theorem outcome_bind_of_ok {x : ExceptT ε (StateM σ) α} {f : α → ExceptT ε (StateM σ) β}
    {s s' : σ} {a : α} (h : outcome x s = (.ok a, s')) :
    outcome (x >>= f) s = outcome (f a) s' := by
  rw [outcome_bind, h]

/-- A first part that fails ends the whole. -/
theorem outcome_bind_of_error {x : ExceptT ε (StateM σ) α} {f : α → ExceptT ε (StateM σ) β}
    {s s' : σ} {e : ε} (h : outcome x s = (.error e, s')) :
    outcome (x >>= f) s = (.error e, s') := by
  rw [outcome_bind, h]

/-- A computation in two parts succeeds exactly if both parts do, one after the other. -/
theorem outcome_bind_eq_ok_iff {x : ExceptT ε (StateM σ) α} {f : α → ExceptT ε (StateM σ) β}
    {s s₂ : σ} {b : β} :
    outcome (x >>= f) s = (.ok b, s₂) ↔
      ∃ a s₁, outcome x s = (.ok a, s₁) ∧ outcome (f a) s₁ = (.ok b, s₂) := by
  rw [outcome_bind]
  rcases h : outcome x s with ⟨result, s₁⟩
  cases result with
  | error e => simp
  | ok a =>
      constructor
      · intro hb
        exact ⟨a, s₁, rfl, hb⟩
      · rintro ⟨a', s', heq, hb⟩
        cases heq
        exact hb

/-! ### What a computation keeps -/

/-- A computation keeps a property of the state, whether it fails or not. -/
def Keeps (I : σ → Prop) (x : ExceptT ε (StateM σ) α) : Prop := ∀ s, I s → I (outcome x s).2

namespace Keeps

variable {I : σ → Prop} {x : ExceptT ε (StateM σ) α} {f : α → ExceptT ε (StateM σ) β}

/-- A value keeps everything. -/
theorem pure (a : α) : Keeps I (Pure.pure a : ExceptT ε (StateM σ) α) := fun _ h => h

/-- So does a failure. -/
theorem throw (e : ε) : Keeps I (MonadExcept.throw e : ExceptT ε (StateM σ) α) := fun _ h => h

/-- What two computations keep, they keep one after the other. -/
theorem bind (hx : Keeps I x) (hf : ∀ a, Keeps I (f a)) : Keeps I (x >>= f) := by
  intro s hs
  rw [outcome_bind]
  have hs' := hx s hs
  rcases hresult : outcome x s with ⟨result, s'⟩
  rw [hresult] at hs'
  cases result with
  | error e => exact hs'
  | ok a => exact hf a s' hs'

/-- What depends on the state has to be kept only from states with the property. -/
theorem bind_get {f : σ → ExceptT ε (StateM σ) β} (hf : ∀ s, I s → I (outcome (f s) s).2) :
    Keeps I (get >>= f) := by
  intro s hs
  rw [outcome_bind_of_ok (outcome_get s)]
  exact hf s hs

/-- What is kept for each member of a list is kept for all of them in turn. -/
theorem forM {l : List β} {f : β → ExceptT ε (StateM σ) PUnit} (hf : ∀ b ∈ l, Keeps I (f b)) :
    Keeps I (l.forM f) := by
  induction l with
  | nil => exact Keeps.pure _
  | cons b l ih =>
      exact (hf b List.mem_cons_self).bind fun _ => ih fun b hb => hf b (List.mem_cons_of_mem _ hb)

end Keeps

/-! ### Actions on files -/

/-- Reporting failures as other ones changes neither successes nor what is left. -/
theorem outcome_mapFailure (f : ε → ε') (x : Action ε α) (fs : FileSystem) :
    outcome (Action.mapFailure f x) fs = ((outcome x fs).1.mapError f, (outcome x fs).2) := by
  simp only [outcome, Action.mapFailure, ExceptT.run_mk, StateT.run_bind]
  rcases x.run.run fs with ⟨result, fs'⟩
  cases result <;> rfl

/-- So the one succeeds exactly if the other does. -/
theorem outcome_mapFailure_eq_ok_iff {f : ε → ε'} {x : Action ε α} {fs fs' : FileSystem} {a : α} :
    outcome (Action.mapFailure f x) fs = (.ok a, fs') ↔ outcome x fs = (.ok a, fs') := by
  rw [outcome_mapFailure]
  rcases outcome x fs with ⟨result, left⟩
  constructor
  · cases result <;> rintro ⟨⟩
    rfl
  · rintro ⟨⟩
    rfl

/-- Looking at the files changes nothing. -/
theorem outcome_look (f : FileSystem → Except ε α) (fs : FileSystem) :
    outcome (Action.look f) fs = (f fs, fs) := by
  rw [Action.look, outcome_bind_of_ok (outcome_get fs)]
  cases f fs <;> rfl

/-- A change that succeeds leaves what it gives. -/
theorem outcome_change_of_ok {f : FileSystem → Except ε FileSystem} {fs fs' : FileSystem}
    (h : f fs = .ok fs') : outcome (Action.change f) fs = (.ok (), fs') := by
  rw [Action.change, outcome_bind_of_ok (outcome_get fs), h]
  rfl

/-- A change that fails changes nothing. -/
theorem outcome_change_of_error {f : FileSystem → Except ε FileSystem} {fs : FileSystem} {e : ε}
    (h : f fs = .error e) : outcome (Action.change f) fs = (.error e, fs) := by
  rw [Action.change, outcome_bind_of_ok (outcome_get fs), h]
  rfl

/-- A change succeeds exactly if there is something it gives. -/
theorem outcome_change_eq_ok_iff {f : FileSystem → Except ε FileSystem} {fs fs' : FileSystem} :
    outcome (Action.change f) fs = (.ok (), fs') ↔ f fs = .ok fs' := by
  cases h : f fs with
  | error e => simp [outcome_change_of_error h]
  | ok changed => simp [outcome_change_of_ok h]

/-- Reporting a failure as another one keeps what was kept before. -/
theorem Keeps.mapFailure {I : FileSystem → Prop} {x : Action ε α} (hx : Keeps I x)
    (f : ε → ε') : Keeps I (Action.mapFailure f x) := by
  intro fs hfs
  rw [outcome_mapFailure]
  exact hx fs hfs

/-- A change that fails leaves the files as they are. -/
theorem Keeps.change {I : FileSystem → Prop} {f : FileSystem → Except ε FileSystem}
    (hf : ∀ fs fs', I fs → f fs = .ok fs' → I fs') : Keeps I (Action.change f) := by
  rw [Action.change]
  refine .bind_get fun fs hfs => ?_
  cases hresult : f fs with
  | error e => exact hfs
  | ok fs' => exact hf fs fs' hfs hresult

/-! ### Effects on a world -/

/-- Looking at the files changes nothing. -/
@[simp] theorem outcome_files (w : World) :
    outcome (Effect.files : Effect ε FileSystem) w = (.ok w.files, w) := rfl

/-- Work on the files leaves the rest of the world alone. -/
theorem outcome_effect_onFiles (x : Action ε α) (w : World) :
    outcome (Effect.onFiles x) w =
      ((outcome x w.files).1, { w with files := (outcome x w.files).2 }) := rfl

/-- Work on the files succeeds in a world exactly if it does on its files. -/
theorem outcome_onFiles_eq_ok_iff {x : Action ε α} {w w' : World} {a : α} :
    outcome (Effect.onFiles x) w = (.ok a, w') ↔
      ∃ fs, outcome x w.files = (.ok a, fs) ∧ w' = { w with files := fs } := by
  rw [outcome_effect_onFiles]
  rcases outcome x w.files with ⟨result, left⟩
  constructor
  · intro h
    cases h
    exact ⟨left, rfl, rfl⟩
  · rintro ⟨fs, hfs, rfl⟩
    cases hfs
    rfl

/-- What work on the files keeps, it keeps as part of a run. -/
theorem Keeps.onFiles {I : FileSystem → Prop} {x : Action ε α} (hx : Keeps I x) :
    Keeps (fun w : World => I w.files) (Effect.onFiles x) := by
  intro w hw
  rw [outcome_effect_onFiles]
  exact hx w.files hw

/-- Looking at the files changes nothing. -/
theorem Keeps.files {I : World → Prop} : Keeps I (Effect.files : Effect ε FileSystem) :=
  fun _ h => h

/-- What follows a result has to keep a property only for what the result gives. -/
theorem Keeps.bind_ofExcept {I : World → Prop} {x : Except ε α} {f : α → Effect ε β}
    (hf : ∀ a, x = .ok a → Keeps I (f a)) : Keeps I (Effect.ofExcept x >>= f) := by
  cases x with
  | error e => exact fun _ h => h
  | ok a => exact hf a rfl

/-- Reporting failures as other ones changes neither successes nor the world that is left. -/
theorem outcome_effect_mapFailure (f : ε → ε') (x : Effect ε α) (w : World) :
    outcome (Effect.mapFailure f x) w = ((outcome x w).1.mapError f, (outcome x w).2) := by
  simp only [outcome, Effect.mapFailure, ExceptT.run_mk, StateT.run_bind]
  rcases x.run.run w with ⟨result, w'⟩
  cases result <;> rfl

/-- What is done in the end changes the world, and not the result. -/
theorem outcome_ending (x : Effect ε α) (change : World → World) (w : World) :
    outcome (Effect.ending x change) w = ((outcome x w).1, change (outcome x w).2) := rfl

end RealmBoot
