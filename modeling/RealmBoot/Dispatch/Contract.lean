import RealmBoot.Text.Pieces

/-!
# Contracts

Both sides of a realm boundary agree on a contract: the qualified name of a type and the signature
of one of its methods.
-/

namespace RealmBoot

/-- The name of a method and the types of its parameters. -/
structure MethodSignature where
  /-- The name. -/
  name : String
  /-- The qualified names of the parameter types. -/
  params : List String
deriving DecidableEq, Repr, Inhabited

/-- How a signature is shown. -/
def MethodSignature.text (m : MethodSignature) : String :=
  m.name ++ "(" ++ Text.joined ", " m.params ++ ")"

/-- What both sides of a realm boundary agree on. -/
structure Contract where
  /-- The qualified name of the type. -/
  typeName : String
  /-- The method to be called. -/
  method : MethodSignature
deriving DecidableEq, Repr, Inhabited

/-- How a contract is shown. -/
def Contract.text (c : Contract) : String := c.typeName ++ "#" ++ c.method.text

end RealmBoot
