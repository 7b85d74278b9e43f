import RealmBoot.Dispatch.Contract
import RealmBoot.Realm.Resolver

/-!
# Missing Targets

The error of a call whose target could not be located: the name is not defined, or nothing is
linked in for it, or what is linked in has another signature. Its report names the chain consulted,
the directories searched and the archives held, and repeats the report on the underlying resolve
error, indented.

* `TargetNotFound.withContext`: puts further directories in front of those searched.
-/

namespace RealmBoot

/-- Why a target could not be located. -/
inductive TargetFailure where
  /-- No realm asked defines the name. -/
  | unresolved
  /-- The name is defined, but nothing is linked in for it. -/
  | unlinked (definition : Definition)
  /-- What is linked in has another signature. -/
  | signatureMismatch (definition : Definition) (linked : MethodSignature)
deriving DecidableEq, Repr, Inhabited

/-- The text of a target failure. -/
def TargetFailure.text : TargetFailure → String
  | unresolved => "not defined in any realm of the chain"
  | unlinked d =>
    "defined by " ++ d.origin.text ++ " in realm `" ++ d.realm ++
      "` but no implementation is linked"
  | signatureMismatch _ linked => "linked implementation only provides " ++ linked.text

/-- A target that could not be located. -/
structure TargetNotFound where
  /-- The contract asked for. -/
  contract : Contract
  /-- The label of the resolver asked. -/
  realm : String
  /-- Why there is no target. -/
  failure : TargetFailure
  /-- The labels of the realms consulted. -/
  chain : List String
  /-- The directories searched. -/
  searched : List Path
  /-- The archives held. -/
  inventory : List Location
  /-- The resolve error behind it. -/
  cause? : Option ResolveError := none
deriving Inhabited

namespace TargetNotFound

/-- The error for a contract in a resolver. -/
def ofResolver (r : Resolver) (contract : Contract) (failure : TargetFailure)
    (cause? : Option ResolveError) : TargetNotFound :=
  { contract, realm := r.label, failure, chain := r.chain, searched := r.sources,
    inventory := r.inventory, cause? }

/-- The text of the error, in one line. -/
def message (e : TargetNotFound) : String :=
  e.contract.text ++ " not found in realm `" ++ e.realm ++ "`: " ++ e.failure.text

/-- Adds a directory to a list unless it is among it. -/
def addDirectory (dirs : List Path) (dir : Path) : List Path :=
  if dir.among dirs then dirs else dirs ++ [dir]

/-- Puts directories in front of those searched; a directory that was searched before and is one of
them is not repeated. -/
def withContext (e : TargetNotFound) (dirs : List Path) : TargetNotFound :=
  { e with searched := e.searched.foldl addDirectory dirs }

/-- A text with every line indented by four spaces and ended by a line feed. -/
def indented (text : String) : String :=
  String.join ((Text.linesOf text).map fun line => "    " ++ line ++ "\n")

/-- The full report. -/
def report (e : TargetNotFound) : String :=
  e.message ++ "\n  realm chain: " ++ Text.joined " -> " e.chain ++
    "\n  searched: " ++ ResolveError.listing (e.searched.map (·.text)) ++
    "\n  archives: " ++ ResolveError.listing (e.inventory.map (·.uri)) ++ "\n" ++
    match e.cause? with
    | none => ""
    | some cause => "  caused by:\n" ++ indented cause.report

end TargetNotFound

end RealmBoot
