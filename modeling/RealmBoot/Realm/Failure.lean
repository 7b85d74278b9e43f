import RealmBoot.Realm.Definition

/-!
# Resolve Errors

A name that cannot be resolved is reported with the chain of realms that were asked, the directories
those were collected from and the archives they hold. An error of combined realms has the error of
the first source as its cause and keeps the other one as suppressed, so errors form trees; a report
shows the whole tree, what is nested being indented.
-/

namespace RealmBoot

/-- What went wrong with a name. -/
inductive ResolveFailure where
  /-- No realm asked defines it. -/
  | notFound
  /-- Two sources that have to agree define it differently. -/
  | conflict (primary secondary : Definition)
deriving DecidableEq, Repr, Inhabited

/-- A name that could not be resolved in a realm. -/
structure ResolveError where
  /-- The name. -/
  name : String
  /-- The label of the realm that was asked. -/
  realm : String
  /-- What went wrong. -/
  failure : ResolveFailure := .notFound
  /-- The labels of the realms consulted, nearest first. -/
  chain : List String := []
  /-- The directories searched. -/
  searched : List Path := []
  /-- The archives held. -/
  inventory : List Location := []
  /-- The failure that led to this one. -/
  cause? : Option ResolveError := none
  /-- Failures of what was tried afterwards. -/
  suppressed : List ResolveError := []
deriving Repr

namespace ResolveError

instance : Inhabited ResolveError := ⟨{ name := "", realm := "" }⟩

/-- The text of a resolve error, in one line. -/
def message (e : ResolveError) : String :=
  match e.failure with
  | .notFound => e.name ++ " not found in realm `" ++ e.realm ++ "`"
  | .conflict primary secondary =>
    e.name ++ " is defined differently in realm `" ++ primary.realm ++ "` (" ++
      primary.origin.text ++ ") and realm `" ++ secondary.realm ++ "` (" ++
      secondary.origin.text ++ ")"

/-- Texts between square brackets, separated by commas. -/
def listing (texts : List String) : String := "[" ++ Text.joined ", " texts ++ "]"

/-- The lines of a report that concern one error alone. -/
def ownLines (e : ResolveError) : List String :=
  e.message
    :: (if e.chain.isEmpty then [] else ["  realm chain: " ++ Text.joined " -> " e.chain])
    ++ (if e.searched.isEmpty then [] else ["  searched: " ++ listing (e.searched.map (·.text))])
    ++ ["  archives: " ++ listing (e.inventory.map (·.uri))]

/-- A line at a nesting depth. -/
def padded (depth : Nat) (line : String) : String := Text.repeated "  " depth ++ line

mutual

/-- The lines of the report on an error that is nested at a depth. -/
def reportLines (depth : Nat) : ResolveError → List String
  | { name, realm, failure, chain, searched, inventory, cause?, suppressed } =>
    (ownLines { name, realm, failure, chain, searched, inventory }).map (padded depth) ++
      causeLines depth cause? ++ suppressedLines depth suppressed

/-- The lines that report the cause of an error nested at a depth. -/
def causeLines (depth : Nat) : Option ResolveError → List String
  | none => []
  | some cause => padded depth "  caused by:" :: reportLines (depth + 2) cause

/-- The lines that report what was suppressed by an error nested at a depth. -/
def suppressedLines (depth : Nat) : List ResolveError → List String
  | [] => []
  | e :: es =>
    padded depth "  suppressed:" :: reportLines (depth + 2) e ++ suppressedLines depth es

end

/-- The report on an error that is nested at a depth, each line ended by a line feed. -/
def reportAt (depth : Nat) (e : ResolveError) : String :=
  String.join ((e.reportLines depth).map (· ++ "\n"))

/-- The full report on an error. -/
def report (e : ResolveError) : String := e.reportAt 0

/-- Whether two sources disagree. -/
def isConflict (e : ResolveError) : Bool :=
  match e.failure with
  | .notFound => false
  | .conflict .. => true

end ResolveError

end RealmBoot
