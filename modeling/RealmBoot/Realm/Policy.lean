/-!
# Fallback Policies

How the two sources of a fallback realm are combined when both define a name.
-/

namespace RealmBoot

/-- A rule for names that both sources may define. -/
inductive FallbackPolicy where
  /-- The first source that defines a name counts. -/
  | firstDefined
  /-- Both sources have to give the same definition. -/
  | unanimous
deriving DecidableEq, Repr, Inhabited

namespace FallbackPolicy

/-- How a policy is written. -/
def text : FallbackPolicy → String
  | firstDefined => "first-defined"
  | unanimous => "unanimous"

/-- All policies. -/
def all : List FallbackPolicy := [firstDefined, unanimous]

/-- Reads a policy. -/
def ofText? (s : String) : Option FallbackPolicy := all.find? (·.text = s)

/-- What is said about a text that is no policy. -/
def unknownText : String := "Matching variant not found"

/-- Every policy is read back from its text. -/
theorem ofText?_text (p : FallbackPolicy) : ofText? p.text = some p := by
  cases p <;> simp [ofText?, all, text]

instance : ToString FallbackPolicy := ⟨text⟩

end FallbackPolicy

end RealmBoot
