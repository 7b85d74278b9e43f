import RealmBoot.Dispatch.Target

/-!
# Linking and Dispatch

Implementations are registered by qualified name. A resolver decides whether a name is visible at
all and where it is defined; the linker supplies what runs. Every dispatch makes an instance of its
own, which may change its state while it is called.

* `Linker.locate`: a fresh instance of the implementation behind a contract, or why there is none.
* `Linker.dispatch`: what that instance answers, and the instances made.
* `Linker.call`: the same for implementations that may fail.
-/

namespace RealmBoot

/-- An implementation linked in: its method, and its constructor. -/
structure Linkage (κ : Type) where
  /-- The signature of its method. -/
  method : MethodSignature
  /-- The instance that its constructor makes. -/
  fresh : κ

/-- The implementations linked in, latest registration first. Their instances are of one type. -/
structure Linker (κ : Type) where
  /-- Type names with their implementations. -/
  entries : List (String × Linkage κ) := []

/-- Why a call gave no value. -/
inductive CallError (ε : Type) where
  /-- Its target could not be located. -/
  | targetNotFound (error : TargetNotFound)
  /-- The target was called and failed. -/
  | invocation (error : ε)

namespace Linker

variable {κ ω : Type}

instance : Inhabited (Linker κ) := ⟨{}⟩

/-- Registers an implementation, in the stead of an earlier one of the same name. -/
def link (l : Linker κ) (typeName : String) (method : MethodSignature) (fresh : κ) : Linker κ :=
  ⟨(typeName, ⟨method, fresh⟩) :: l.entries.filter (·.1 ≠ typeName)⟩

/-- The implementation registered for a type name. -/
def find? (l : Linker κ) (typeName : String) : Option (Linkage κ) :=
  (l.entries.find? (·.1 = typeName)).map (·.2)

/-- Whether something is registered for a type name. -/
def contains (l : Linker κ) (typeName : String) : Bool := (l.find? typeName).isSome

/-- The type names registered. -/
def names (l : Linker κ) : OrderedSet String := .ofList (l.entries.map (·.1))

/-- A fresh instance of the implementation behind a contract, together with the definition that
makes it visible. -/
def locate (l : Linker κ) (r : Resolver) (c : Contract) :
    Except TargetNotFound (Definition × κ) :=
  match r.resolve c.typeName with
  | .error e => .error (.ofResolver r c .unresolved (some e))
  | .ok d =>
    match l.find? c.typeName with
    | none => .error (.ofResolver r c (.unlinked d) none)
    | some linkage =>
      if linkage.method = c.method then .ok (d, linkage.fresh)
      else .error (.ofResolver r c (.signatureMismatch d linkage.method) none)

/-- Calls a fresh instance of the implementation behind a contract. The instances are those made so
far, each as its call has left it. -/
def dispatch (l : Linker κ) (r : Resolver) (c : Contract) (invoke : κ → ω × κ)
    (instances : List κ) : Except TargetNotFound ω × List κ :=
  match l.locate r c with
  | .error e => (.error e, instances)
  | .ok (_, fresh) => (.ok (invoke fresh).1, instances ++ [(invoke fresh).2])

/-- Calls a fresh instance of the implementation behind a contract, which may fail itself. -/
def call {ε α : Type} (l : Linker κ) (r : Resolver) (c : Contract) (invoke : κ → Except ε α × κ)
    (instances : List κ) : Except (CallError ε) α × List κ :=
  match l.dispatch r c invoke instances with
  | (.error e, instances) => (.error (.targetNotFound e), instances)
  | (.ok answer, instances) => (answer.mapError .invocation, instances)

/-- What a fresh instance answers that keeps its state. -/
def answer (l : Linker κ) (r : Resolver) (c : Contract) (ask : κ → ω) : Except TargetNotFound ω :=
  (l.dispatch r c (fun object => (ask object, object)) []).1

/-- What answers a contract is what is located for it, asked. -/
theorem answer_eq (l : Linker κ) (r : Resolver) (c : Contract) (ask : κ → ω) :
    l.answer r c ask = (l.locate r c).map (ask ·.2) := by
  rw [answer, dispatch]
  cases l.locate r c <;> rfl

/-- The latest registration of a name is the one found, and it hides no other name. -/
theorem find?_link (l : Linker κ) (t : String) (m : MethodSignature) (fresh : κ) (u : String) :
    (l.link t m fresh).find? u = if u = t then some ⟨m, fresh⟩ else l.find? u := by
  unfold find? link
  by_cases h : u = t
  · simp [h]
  · have key : (l.entries.filter (·.1 ≠ t)).find? (·.1 = u) = l.entries.find? (·.1 = u) := by
      rw [List.find?_filter]
      congr 1
      funext e
      by_cases he : e.1 = u <;> simp [he, h]
    simp only [List.find?_cons, h, if_false, Ne.symm h, decide_false]
    rw [key]

end Linker

end RealmBoot
