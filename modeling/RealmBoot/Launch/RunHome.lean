import RealmBoot.Launch.Failure
import RealmBoot.Launch.World
import RealmBoot.Surroundings

/-!
# Run Homes

Every run has a home directory of its own: an empty one given to it, or a temporary one that is
removed when the run ends. Init hooks are copied into it before the host boots.
-/

namespace RealmBoot

/-- The home directory of one run. -/
structure RunHome where
  /-- Its path. -/
  path : Path
  /-- Whether it is removed when the run ends. -/
  temporary : Bool
deriving DecidableEq, Repr, Inhabited

namespace RunHome

/-- What the names of temporary homes begin with. -/
def nameStart : String := "pipeline-runner-home"

/-- The name of a temporary home, made distinct by a number. -/
def temporaryName (n : Nat) : String :=
  let digits := (Nat.repr n).toList
  nameStart ++ String.ofList (List.replicate (6 - digits.length) '0' ++ digits)

/-- The first numbered path for a temporary home under which nothing stands. -/
def freePath (s : Surroundings) (fs : FileSystem) : Path :=
  let taken := ((fs.list s.tempDir).toOption.getD []).length
  let candidates := (List.range (taken + 1)).map fun n => s.tempDir.child (temporaryName n)
  (candidates.find? fun p => !(fs.linkStat p).toOption.isSome).getD (s.tempDir.child nameStart)

/-- Takes a given directory as home; it has to exist and to be empty. -/
def existing (dir : Path) : Effect Failure RunHome := do
  let fs ← Effect.files
  if !fs.isDirectory dir then throw (.runHome dir .notDirectory)
  match fs.list dir with
  | .error e => throw (.io e)
  | .ok [] => pure ⟨dir, false⟩
  | .ok (_ :: _) => throw (.runHome dir .notEmpty)

/-- Makes a temporary home. -/
def makeTemporary (s : Surroundings) : Effect Failure RunHome := do
  let path := freePath s (← Effect.files)
  Effect.onFiles (Action.mapFailure .io (Action.change (·.createDir path)))
  pure ⟨path, true⟩

/-- Prepares a home: the one requested, or a temporary one. -/
def prepare (s : Surroundings) : (requested? : Option Path) → Effect Failure RunHome
  | some dir => existing dir
  | none => makeTemporary s

/-- The world after a home is given up. -/
def dispose (home : RunHome) (w : World) : World :=
  if home.temporary then { w with files := ((FileSystem.removeAll home.path).run.run w.files).2 }
  else w

/-- Where extension modules are placed in a home. The directory is made when it is first used. -/
def pluginsDir (home : RunHome) : Effect Failure Path := do
  let dir := home.path.child "plugins"
  Effect.onFiles (Action.mapFailure .io (FileSystem.createDirs dir))
  pure dir

/-- Where init hooks are placed in a home. -/
def hooksTarget (home : RunHome) : Path := home.path.child "init.groovy.d"

/-- Copies one thing met below the hooks directory to its place in the home. -/
def copyHook (hooks target path : Path) (kind : Kind) : Action Failure Unit :=
  match path.below? hooks with
  | none => pure ()
  | some relative =>
    let placed := target.join relative
    if kind = .directory then Action.mapFailure .io (FileSystem.createDirs placed)
    else Action.mapFailure .io (Action.change (·.copy path placed))

/-- Copies what a walk from something of the given kind meets, each thing before the walk goes on.
A directory is listed before it is copied. -/
def copyHooksFrom (hooks target : Path) : (depth : Nat) → Walk.Trail → Path → Kind →
    Action Failure Unit
  | 0, _, _, _ => pure ()
  | depth + 1, trail, path, kind => do
    let fs ← get
    match Walk.settle fs trail path kind with
    | .error f => throw (.walk f)
    | .ok .directory =>
      let listing := fs.list path
      copyHook hooks target path .directory
      match listing with
      | .error e => throw (.walk ⟨path, .fault e⟩)
      | .ok names =>
        names.forM fun (name, kind) =>
          copyHooksFrom hooks target depth (Walk.enter fs trail path) (path.child name) kind
    | .ok kind => copyHook hooks target path kind

/-- Copies the tree of a hooks directory, links followed, into a home. The directory has to exist
and to hold something. -/
def installHooks (home : RunHome) (hooks : Path) : Effect Failure Path := do
  let fs ← Effect.files
  let shown := (fs.absolute hooks).toOption.getD hooks
  if !fs.isDirectory hooks then throw (.initHooks shown .notDirectory)
  match fs.list hooks with
  | .error e => throw (.io e)
  | .ok [] => throw (.initHooks shown .empty)
  | .ok (_ :: _) =>
    match fs.linkStat hooks with
    | .error e => throw (.walk ⟨hooks, .fault e⟩)
    | .ok node =>
      Effect.onFiles (copyHooksFrom hooks home.hooksTarget Walk.depthLimit [] hooks node.kind)
      pure home.hooksTarget

end RunHome

end RealmBoot
