import RealmBoot.CommandLine.Grammar
import RealmBoot.Text.Pieces

/-!
# Reading Command Lines

A command line is read from left to right. An option with a value stays pending until the next one
begins or the line ends; only then its value is checked, and only then it is noticed that it was
given twice. An option that does not exist is reported at once, before anything pending.

A value stands in an argument of its own, or after an equals sign, or right after the letter of its
option. After `--` there are no options.

* `CommandLine.parse`: the command and what was given, or what is wrong with the line.
-/

namespace RealmBoot

namespace CommandLine

/-- What is wrong with a command line, or what it asks for instead of a command. -/
inductive UsageError where
  /-- There is no such option, or a value is given where none may be. -/
  | unknownArgument
  /-- There is no such command. -/
  | unknownCommand
  /-- Something is given twice, or together with what excludes it. -/
  | conflict
  /-- A value is missing or empty. -/
  | missingValue
  /-- A flag is given a value. -/
  | needlessValue
  /-- A value is not of the kind wanted. -/
  | invalidValue
  /-- Something that is required is not given. -/
  | missingParam
  /-- Help is asked for. -/
  | helpAsked
  /-- The version is asked for. -/
  | versionAsked
deriving DecidableEq, Repr

/-- What was given: a value for every time something was given, a flag having an empty one. -/
abbrev Given := List (Param × String)

/-- Reads a whole number: digits after at most one sign. -/
def wholeNumber? (s : String) : Option Int :=
  let (negative, digits) :=
    match s.toList with
    | '+' :: ds => (false, ds)
    | '-' :: ds => (true, ds)
    | ds => (false, ds)
  if digits.isEmpty || !digits.all Char.isDigit then none
  else
    let n : Int := digits.foldl (fun n c => 10 * n + (c.toNat - '0'.toNat)) 0
    some (if negative then -n else n)

/-- Reads a whole number of 32 bits without a sign. -/
def number? (s : String) : Option Nat :=
  match wholeNumber? s with
  | some n => if 0 ≤ n ∧ n < Int.pow 2 32 then some n.toNat else none
  | none => none

/-- Checks a value. -/
def checkValue (kind : ValueKind) (v : String) : Except UsageError Unit :=
  match kind with
  | .text => .ok ()
  | .path => if v.isEmpty then .error .missingValue else .ok ()
  | .number => if (number? v).isSome then .ok () else .error .invalidValue

/-- Something given that has not been checked yet. -/
structure Pending where
  /-- What it gives. -/
  param : Param
  /-- What its value has to be like. -/
  kind : ValueKind
  /-- Whether it may be repeated. -/
  repeatable : Bool
  /-- Its value, if that has been read. -/
  value? : Option String
deriving DecidableEq, Repr

/-- How far a command line has been read. -/
structure Reading where
  /-- What was given and checked. -/
  given : Given := []
  /-- What was given last. -/
  pending? : Option Pending := none
  /-- Whether an option of the command has been met. -/
  met : Bool := false
  /-- Whether there are no more options. -/
  trailing : Bool := false
  /-- Whether the value without an option name has been met. -/
  positionalMet : Bool := false
deriving Repr

namespace Reading

/-- Adds what was checked, unless it may be given only once and has been. -/
def add (r : Reading) (param : Param) (repeatable : Bool) (v : String) :
    Except UsageError Reading :=
  if !repeatable && r.given.any (·.1 = param) then .error .conflict
  else .ok { r with given := r.given ++ [(param, v)] }

/-- Takes something given: it needs a value, must not be given twice, and its value is checked. -/
def accept (r : Reading) (p : Pending) : Except UsageError Reading :=
  match p.value? with
  | none => .error .missingValue
  | some v => do
    let r ← r.add p.param p.repeatable v
    checkValue p.kind v
    pure r

/-- Takes what is pending. -/
def settle (r : Reading) : Except UsageError Reading :=
  match r.pending? with
  | none => .ok r
  | some p => { r with pending? := none }.accept p

/-- Takes an option, with the value that is attached to it. -/
def takeOption (r : Reading) (o : OptionSpec) (attached? : Option String) :
    Except UsageError Reading :=
  let r := { r with met := true }
  let valued (kind : ValueKind) (repeatable : Bool) : Except UsageError Reading := do
    let r ← r.settle
    let p : Pending := { param := o.param, kind, repeatable, value? := attached? }
    if attached?.isSome then r.accept p else pure { r with pending? := some p }
  let bare (act : Reading → Except UsageError Reading) : Except UsageError Reading :=
    if attached?.isSome then .error .needlessValue else r.settle.bind act
  match o.role with
  | .one kind => valued kind false
  | .many kind => valued kind true
  | .flag => bare fun r => r.add o.param false ""
  | .help => bare fun _ => .error .helpAsked
  | .version => bare fun _ => .error .versionAsked

/-- Takes an argument that starts with two dashes, which have been cut off. -/
def takeLong (options : List OptionSpec) (r : Reading) (body : String) :
    Except UsageError Reading :=
  let (name, attached?) :=
    match Text.cutAt '=' body with
    | some (name, v) => (name, some v)
    | none => (body, none)
  match options.find? (·.long = name) with
  | none => .error .unknownArgument
  | some o => r.takeOption o attached?

/-- The value attached to a letter: the characters after it, without an equals sign in front. -/
def attachedToLetter : List Char → Option String
  | [] => none
  | '=' :: v => some (String.ofList v)
  | v => some (String.ofList v)

/-- Takes the letters of an argument that starts with one dash, up to the first that has a value. -/
def takeLetters (options : List OptionSpec) (r : Reading) : List Char → Except UsageError Reading
  | [] => .ok r
  | c :: cs =>
    match options.find? (·.short? = some c) with
    | none => .error .unknownArgument
    | some o =>
      match o.role with
      | .one _ | .many _ => r.takeOption o (attachedToLetter cs)
      | _ => do
        let r ← r.takeOption o none
        takeLetters options r cs

/-- Takes an argument that is neither an option nor the value of one. -/
def takePositional (positional? : Option (Param × ValueKind)) (stray : Reading → UsageError)
    (r : Reading) (a : String) : Except UsageError Reading :=
  match positional? with
  | none => .error (stray r)
  | some (param, kind) =>
    if r.positionalMet then .error (stray r)
    else do
      let r ← r.settle
      pure { r with
        met := true
        positionalMet := true
        pending? := some { param, kind, repeatable := false, value? := some a } }

/-- Takes one argument; `stray` says what is wrong with one that has no place. -/
def take (spec : CommandSpec) (stray : String → Reading → UsageError) (r : Reading) (a : String) :
    Except UsageError Reading :=
  if r.trailing then r.takePositional spec.positional? (stray a) a
  else match a.toList with
    | ['-', '-'] => .ok { r with trailing := true }
    | '-' :: '-' :: body => r.takeLong spec.options (String.ofList body)
    | '-' :: c :: cs => r.takeLetters spec.options (c :: cs)
    | _ =>
      match r.pending? with
      | some p =>
        if p.value?.isNone then .ok { r with pending? := some { p with value? := some a } }
        else r.takePositional spec.positional? (stray a) a
      | none => r.takePositional spec.positional? (stray a) a

end Reading

/-- Reads the arguments of a command. -/
def parseArgs (spec : CommandSpec) (stray : String → Reading → UsageError) (args : List String) :
    Except UsageError Given := do
  let r ← args.foldlM (Reading.take spec stray) {}
  let r ← r.settle
  if spec.required.all fun p => r.given.any (·.1 = p) then pure r.given
  else throw .missingParam

/-- What is wrong with an argument that has no place on a line without a command. -/
def strayInRoot (a : String) (r : Reading) : UsageError :=
  if r.met then .conflict
  else if r.trailing && ((CommandName.ofText? a).isSome || a = "help") then .unknownArgument
  else .unknownCommand

/-- What asking for help on a command comes to. -/
def parseHelp : List String → UsageError
  | [] => .helpAsked
  | [a] => if (CommandName.ofText? a).isSome || a = "help" then .helpAsked else .unknownCommand
  | _ => .unknownCommand

/-- Reads a command line: the command, if one is named, and what was given. Only the first argument
can name a command. -/
def parse (args : List String) : Except UsageError (Option CommandName × Given) :=
  let root : Except UsageError (Option CommandName × Given) :=
    (parseArgs rootSpec strayInRoot args).map (none, ·)
  match args with
  | [] => root
  | first :: rest =>
    if first = "help" then .error (parseHelp rest)
    else match CommandName.ofText? first with
      | some name =>
        (parseArgs name.spec (fun _ _ => .unknownArgument) rest).map (some name, ·)
      | none => root

end CommandLine

end RealmBoot
