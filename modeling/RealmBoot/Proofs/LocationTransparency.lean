import Mathlib.Data.List.Induction
import RealmBoot.Dispatch.Linker

/-!
# Location Transparency

Whether a name is visible, what is linked in for it and which signature its callers expect are told
by three parties that need not agree. A linker is used over and over, with further registrations
between its calls, and the instances it makes have a state of their own. What a call comes to is
nevertheless told by the resolver in charge and by the last registration of the name: it is what the
method says of an instance as the constructor makes it, as if nothing had been called before.

## Main results

* `Linker.Reflects.step`: what one event keeps of a linker in use.
* `Linker.reflects_after`: a linker in use reflects the registrations made.
* `Linker.call_of_runs`, `Linker.locate_of_not_runs`: what a call comes to.
* `Linker.location_transparent`: the same after every history of registrations and calls.
-/

namespace RealmBoot

/-- A registration of an implementation. -/
structure Registration (κ : Type) where
  /-- The qualified name of the type. -/
  typeName : String
  /-- The signature of its method. -/
  method : MethodSignature
  /-- The instance that its constructor makes. -/
  fresh : κ

/-- What happens to a linker in use. -/
inductive LinkerEvent (κ : Type) : Type 1 where
  /-- An implementation is registered. -/
  | link (registration : Registration κ)
  /-- An implementation is called: through a resolver, under a contract, and with a method that may
  change the instance it is called on. -/
  | call {ε α : Type} (resolver : Resolver) (contract : Contract) (invoke : κ → Except ε α × κ)

/-- A linker in use. -/
structure LinkerState (κ : Type) where
  /-- The linker. -/
  linker : Linker κ := {}
  /-- The instances made so far, each as its call has left it. -/
  instances : List κ := []

variable {κ ε α : Type}

/-- The registration an event makes. -/
def LinkerEvent.registration? : LinkerEvent κ → Option (Registration κ)
  | link reg => some reg
  | call .. => none

/-- The registrations made by some events. -/
def LinkerEvent.registered (history : List (LinkerEvent κ)) : List (Registration κ) :=
  history.filterMap registration?

/-- What one event does. -/
def LinkerState.step (used : LinkerState κ) : LinkerEvent κ → LinkerState κ
  | .link reg => { used with linker := used.linker.link reg.typeName reg.method reg.fresh }
  | .call r c invoke => { used with instances := (used.linker.call r c invoke used.instances).2 }

/-- A linker that is empty at first, after some events. -/
def LinkerState.after (history : List (LinkerEvent κ)) : LinkerState κ := history.foldl step {}

namespace Linker

open LinkerEvent LinkerState

variable {regs : List (Registration κ)} {reg reg' : Registration κ} {t : String}
  {r : Resolver} {c : Contract} {l l' : Linker κ} {used : LinkerState κ}

/-- A registration is the last one for a type name. -/
def LastFor (regs : List (Registration κ)) (t : String) (reg : Registration κ) : Prop :=
  ∃ before later, regs = before ++ reg :: later ∧ reg.typeName = t ∧ ∀ x ∈ later, x.typeName ≠ t

/-- A call runs what a registration registers: the resolver resolves the type name, and the last
registration for it has exactly the method of the contract. -/
def Runs (regs : List (Registration κ)) (r : Resolver) (c : Contract) (reg : Registration κ) :
    Prop :=
  (∃ d, r.resolve c.typeName = .ok d) ∧ LastFor regs c.typeName reg ∧
    reg.method.name = c.method.name ∧ reg.method.params = c.method.params

/-- An error tells why a call has no target. A name that is not resolved is told of before one
without a registration, and that before a registration with another method. -/
structure Explains (regs : List (Registration κ)) (r : Resolver) (c : Contract)
    (e : TargetNotFound) : Prop where
  /-- It names the contract. -/
  contract : e.contract = c
  /-- It names the resolver. -/
  realm : e.realm = r.label
  /-- It names the realms consulted. -/
  chain : e.chain = r.chain
  /-- It names the directories searched. -/
  searched : e.searched = r.sources
  /-- It names the archives held. -/
  inventory : e.inventory = r.inventory
  /-- The error of the resolver is behind it. -/
  unresolved : ∀ cause, r.resolve c.typeName = .error cause →
    e.failure = .unresolved ∧ e.cause? = some cause
  /-- Nothing is registered for the name. -/
  unlinked : ∀ d, r.resolve c.typeName = .ok d → (∀ reg ∈ regs, reg.typeName ≠ c.typeName) →
    e.failure = .unlinked d ∧ e.cause? = none
  /-- The last registration for the name has another method. -/
  signatureMismatch : ∀ d reg, r.resolve c.typeName = .ok d → LastFor regs c.typeName reg →
    reg.method ≠ c.method → e.failure = .signatureMismatch d reg.method ∧ e.cause? = none

/-! ### The last registration -/

/-- The last registration for a name is the first one that is met from the end. -/
theorem lastFor_iff : LastFor regs t reg ↔ regs.reverse.find? (·.typeName = t) = some reg := by
  rw [List.find?_eq_some_iff_append, LastFor]
  constructor
  · rintro ⟨before, later, rfl, hname, hlater⟩
    exact ⟨by simpa using hname, later.reverse, before.reverse, by simp, by simpa using hlater⟩
  · rintro ⟨hname, later, before, hsplit, hlater⟩
    refine ⟨before.reverse, later.reverse, ?_, by simpa using hname, by simpa using hlater⟩
    rw [← List.reverse_reverse regs, hsplit]
    simp

/-- The last registration for a type is one of them, and for that type. -/
theorem LastFor.mem (h : LastFor regs t reg) : reg ∈ regs ∧ reg.typeName = t := by
  obtain ⟨before, later, rfl, hname, -⟩ := h
  exact ⟨by simp, hname⟩

/-- There is only one that is the last. -/
theorem LastFor.unique (h : LastFor regs t reg) (h' : LastFor regs t reg') : reg = reg' :=
  Option.some.inj ((lastFor_iff.mp h).symm.trans (lastFor_iff.mp h'))

/-! ### A linker in use -/

/-- A linker reflects some registrations: what it holds under a name is what the last of them for
that name has registered. -/
def Reflects (regs : List (Registration κ)) (l : Linker κ) : Prop :=
  ∀ t, l.find? t = (regs.reverse.find? (·.typeName = t)).map fun reg => ⟨reg.method, reg.fresh⟩

/-- **One event** leaves a linker that reflects the registrations made up to then. -/
theorem Reflects.step (h : Reflects regs used.linker) (event : LinkerEvent κ) :
    Reflects (regs ++ event.registration?.toList) (used.step event).linker := by
  cases event with
  | call r c invoke => simpa [registration?, LinkerState.step] using h
  | link reg =>
      intro t
      simp only [LinkerState.step, registration?, Option.toList_some, find?_link,
        List.reverse_append, List.reverse_singleton, List.singleton_append, List.find?_cons]
      by_cases ht : reg.typeName = t
      · simp [ht]
      · simpa [ht, Ne.symm ht] using h t

/-- **A linker in use reflects the registrations made**, whatever was called in between. -/
theorem reflects_after (history : List (LinkerEvent κ)) :
    Reflects (registered history) (after history).linker := by
  induction history using List.reverseRecOn with
  | nil => exact fun t => rfl
  | append_singleton history event ih =>
      have hregistered : registered (history ++ [event]) =
          registered history ++ event.registration?.toList := by
        cases h : event.registration? <;> simp [registered, h]
      rw [hregistered, after, List.foldl_append]
      exact ih.step event

/-- A linker that reflects its registrations finds the last one for a type. -/
theorem Reflects.find?_of_lastFor (h : Reflects regs l) (hlast : LastFor regs t reg) :
    l.find? t = some ⟨reg.method, reg.fresh⟩ := by
  rw [h, lastFor_iff.mp hlast]
  rfl

/-- What a linker holds under a name was registered last for it. -/
theorem Reflects.exists_lastFor (h : Reflects regs l) {linkage : Linkage κ}
    (hfind : l.find? t = some linkage) :
    ∃ reg, LastFor regs t reg ∧ linkage = ⟨reg.method, reg.fresh⟩ := by
  rw [h] at hfind
  obtain ⟨reg, hlast, rfl⟩ := Option.map_eq_some_iff.mp hfind
  exact ⟨reg, lastFor_iff.mpr hlast, rfl⟩

/-- Linkers that reflect the same registrations locate alike. -/
theorem Reflects.locate_eq (h : Reflects regs l) (h' : Reflects regs l') :
    l.locate r c = l'.locate r c := by
  rw [locate, locate, h, h']

/-! ### One call -/

/-- **A call that runs a callee** makes one instance, as the constructor makes it, and ends as the
method says of that instance. -/
theorem call_of_runs (h : Reflects regs l) (hruns : Runs regs r c reg)
    (invoke : κ → Except ε α × κ) (instances : List κ) :
    l.call r c invoke instances =
      ((invoke reg.fresh).1.mapError .invocation, instances ++ [(invoke reg.fresh).2]) := by
  obtain ⟨⟨d, hresolve⟩, hlast, hname, hparams⟩ := hruns
  have hmethod : reg.method = c.method := by
    rw [MethodSignature.mk.injEq]
    exact ⟨hname, hparams⟩
  simp only [call, dispatch, locate, hresolve, h.find?_of_lastFor hlast, hmethod, if_true]

/-- **A call that runs no callee** has no target, and the error tells why. -/
theorem locate_of_not_runs (h : Reflects regs l) (hruns : ∀ reg, ¬ Runs regs r c reg) :
    ∃ e, l.locate r c = .error e ∧ Explains regs r c e := by
  cases hresolve : r.resolve c.typeName with
  | error cause =>
      refine ⟨.ofResolver r c .unresolved (some cause), by simp only [locate, hresolve],
        rfl, rfl, rfl, rfl, rfl, fun cause' h' => ?_, fun d h' => ?_, fun d reg h' => ?_⟩
      · cases hresolve.symm.trans h'
        exact ⟨rfl, rfl⟩
      · cases hresolve.symm.trans h'
      · cases hresolve.symm.trans h'
  | ok d =>
      cases hfind : l.find? c.typeName with
      | none =>
          refine ⟨.ofResolver r c (.unlinked d) none, by simp only [locate, hresolve, hfind],
            rfl, rfl, rfl, rfl, rfl, fun cause h' => ?_, fun d' h' => ?_, fun d' reg h' hlast => ?_⟩
          · cases hresolve.symm.trans h'
          · cases hresolve.symm.trans h'
            exact fun _ => ⟨rfl, rfl⟩
          · cases hfind.symm.trans (h.find?_of_lastFor hlast)
      | some linkage =>
          obtain ⟨reg, hlast, rfl⟩ := h.exists_lastFor hfind
          have hmethod : reg.method ≠ c.method := fun heq =>
            hruns reg ⟨⟨d, hresolve⟩, hlast, by rw [heq], by rw [heq]⟩
          refine ⟨.ofResolver r c (.signatureMismatch d reg.method) none,
            by simp only [locate, hresolve, hfind, hmethod, if_false],
            rfl, rfl, rfl, rfl, rfl, fun cause h' => ?_, fun d' h' hnone => ?_,
            fun d' reg' h' hlast' _ => ?_⟩
          · cases hresolve.symm.trans h'
          · exact absurd hlast.mem.2 (hnone reg hlast.mem.1)
          · cases hresolve.symm.trans h'
            have hsame : reg.method = reg'.method := congrArg Linkage.method
              (Option.some.inj (hfind.symm.trans (h.find?_of_lastFor hlast')))
            exact ⟨congrArg (TargetFailure.signatureMismatch d) hsame, rfl⟩

/-- **Dispatch is location transparent.** A call comes to the same after every history of
registrations and calls in which the registrations are the same. It runs a callee exactly if the
resolver resolves the type name and the last registration for it has the method of the contract.
Then one instance is made, called as its constructor makes it, and what the method gives, a value or
an error of its own, is what the call gives. Otherwise no instance is made, and an error tells why.
In either case the instances made before are left as they are. -/
theorem location_transparent (regs : List (Registration κ)) (r : Resolver) (c : Contract)
    (invoke : κ → Except ε α × κ) :
    ∃ outcome made,
      (∀ history, registered history = regs →
        (after history).linker.call r c invoke (after history).instances =
          (outcome, (after history).instances ++ made)) ∧
      (made ≠ [] ↔ ∃ reg, Runs regs r c reg) ∧
      (∀ reg, Runs regs r c reg → made = [(invoke reg.fresh).2] ∧
        (∀ value, outcome = .ok value ↔ (invoke reg.fresh).1 = .ok value) ∧
        ∀ e, outcome = .error (.invocation e) ↔ (invoke reg.fresh).1 = .error e) ∧
      ((∀ reg, ¬ Runs regs r c reg) →
        ∃ e, outcome = .error (.targetNotFound e) ∧ Explains regs r c e) := by
  have hreflects : ∀ {history}, registered history = regs → Reflects regs (after history).linker :=
    fun hregs => hregs ▸ reflects_after _
  by_cases hruns : ∃ reg, Runs regs r c reg
  · obtain ⟨reg, hreg⟩ := hruns
    refine ⟨_, _, fun history hregs => call_of_runs (hreflects hregs) hreg invoke _,
      by simpa using ⟨reg, hreg⟩, fun reg' hreg' => ?_, fun hnone => absurd hreg (hnone reg)⟩
    obtain rfl : reg = reg' := hreg.2.1.unique hreg'.2.1
    refine ⟨rfl, fun value => ?_, fun e => ?_⟩
    · cases (invoke reg.fresh).1 <;> simp [Except.mapError]
    · cases (invoke reg.fresh).1 <;> simp [Except.mapError]
  · rw [not_exists] at hruns
    have hlinked : registered (regs.map .link) = regs := by
      simp [registered, registration?, Function.comp_def]
    obtain ⟨e, hlocate, hexplains⟩ := locate_of_not_runs (hreflects hlinked) hruns
    refine ⟨.error (.targetNotFound e), [], fun history hregs => ?_, by simpa using hruns,
      fun reg hreg => absurd hreg (hruns reg), fun _ => ⟨e, rfl, hexplains⟩⟩
    rw [← (hreflects hregs).locate_eq (hreflects hlinked)] at hlocate
    rw [call, dispatch, hlocate, List.append_nil]

/-! ### A counter -/

/-- A counter that is made with a number. -/
def counterAt (n : Nat) : Registration Nat := ⟨"demo.Counter", ⟨"count", ["int"]⟩, n⟩

/-- What the callers of counters agree on with them. -/
def counterContract : Contract := ⟨"demo.Counter", ⟨"count", ["int"]⟩⟩

/-- What is visible to them. -/
def counting : Resolver := .platform { prefixes := ["demo."] }

/-- Counts on by a number, which must not be zero. -/
def countOn (k n : Nat) : Except String Nat × Nat :=
  (if k = 0 then .error "nothing to count" else .ok (n + k), n + k)

/-- One counter is registered and called, and then another in its stead. -/
def counted : List (LinkerEvent Nat) :=
  [.link (counterAt 0), .call counting counterContract (countOn 1),
    .link (counterAt 10), .call counting counterContract (countOn 2),
    .call counting counterContract (countOn 0)]

/-- The counter counts on from its own start, whatever was counted before. -/
theorem location_transparent_counted :
    (after counted).linker.call counting counterContract (countOn 3) [1, 12, 10] =
      (.ok 13, [1, 12, 10, 13]) := by
  obtain ⟨outcome, made, hsame, -, hruns, -⟩ :=
    location_transparent [counterAt 0, counterAt 10] counting counterContract (countOn 3)
  obtain ⟨rfl, hvalue, -⟩ := hruns (counterAt 10)
    ⟨⟨_, rfl⟩, ⟨[counterAt 0], [], rfl, rfl, by simp⟩, rfl, rfl⟩
  obtain rfl := (hvalue 13).mpr rfl
  exact hsame counted rfl

end Linker

end RealmBoot
