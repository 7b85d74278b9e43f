import RealmBoot.Files.Access

/-!
# Changing Files

Each operation gives the file system after it, or the fault that kept it from changing anything.
Only `createDirs` and `removeAll` can fail half way: the directories made before stay, and what was
removed before is gone. They are therefore `Action`s, computations that hand their file system on
even when they fail.
-/

namespace RealmBoot

/-- A computation on a file system. When it fails, what it changed before stays changed. -/
abbrev Action (ε : Type) := ExceptT ε (StateM FileSystem)

namespace Action

variable {ε ε' α : Type}

/-- Looks at the file system. -/
def look (f : FileSystem → Except ε α) : Action ε α := do
  match f (← get) with
  | .ok a => pure a
  | .error e => throw e

/-- Changes the file system, or fails and leaves it as it is. -/
def change (f : FileSystem → Except ε FileSystem) : Action ε Unit := do
  match f (← get) with
  | .ok fs => set fs
  | .error e => throw e

/-- Reports every failure as another one. -/
def mapFailure (f : ε → ε') (x : Action ε α) : Action ε' α :=
  ExceptT.mk do
    match ← x.run with
    | .ok a => pure (.ok a)
    | .error e => pure (.error (f e))

end Action

namespace FileSystem

/-- Makes one directory. A slash at the end of the path makes no difference. -/
def createDir (fs : FileSystem) (p : Path) : Except Fault FileSystem := do
  checkPath p
  match ← fs.pursue .kept p p.segments with
  | .arrived _ | .adrift => throw .alreadyExists
  | .vacant q => pure (fs.put q .directory)

/-- Makes a symbolic link with the given text. A path that ends in a slash cannot become one. -/
def createLink (fs : FileSystem) (target p : Path) : Except Fault FileSystem := do
  checkPath target
  checkPath p
  match ← fs.pursue .kept p p.segments with
  | .arrived _ | .adrift => throw .alreadyExists
  | .vacant q => if p.endsInSlash then throw .notFound else pure (fs.put q (.link target))

/-- The place at which a file is written under a path: an existing file or a free name. A path
that ends in a slash names no file, but its parent has to be there all the same. -/
def writePlace (fs : FileSystem) (p : Path) : Except Fault Place := do
  checkPath p
  if p.endsInSlash then
    let _ ← fs.pursue .followed p (stepsAbove p)
    throw .isDirectory
  match ← fs.lead .filled p with
  | .vacant q => pure q
  | .arrived q => if fs.isDirectoryAt q then throw .isDirectory else pure q
  | .adrift => throw .isDirectory

/-- Writes a file, in the stead of an existing one. -/
def write (fs : FileSystem) (p : Path) (bytes : ByteArray) : Except Fault FileSystem := do
  let q ← fs.writePlace p
  pure (fs.putFile q bytes)

/-- Makes an empty file unless one is there. -/
def touch (fs : FileSystem) (p : Path) : Except Fault FileSystem := do
  let q ← fs.writePlace p
  pure (if (fs.node? q).isSome then fs else fs.putFile q .empty)

/-- Sets the modification time of a file. -/
def setModified (fs : FileSystem) (p : Path) (t : Stamp) : Except Fault FileSystem := do
  let q ← fs.place p
  match fs.node? q with
  | some (.file bytes _) => pure (fs.put q (.file bytes t))
  | _ => throw .isDirectory

/-- Copies the bytes of a file. The target is emptied before the source is read, so a file that is
copied onto itself ends up empty. -/
def copy (fs : FileSystem) (source target : Path) : Except Fault FileSystem := do
  match ← fs.lead .followed source with
  | .vacant _ => throw .notFound
  | .adrift => throw .notCopyable
  | .arrived q =>
    if (fs.node? q).map (·.kind) ≠ some .file then throw .notCopyable
    let emptied ← fs.write target .empty
    match emptied.node? q with
    | some (.file bytes _) => emptied.write target bytes
    | _ => throw .notCopyable

/-- Removes a file or a link. -/
def removeFile (fs : FileSystem) (p : Path) : Except Fault FileSystem := do
  match ← fs.lead .kept p with
  | .vacant _ => throw .notFound
  | .adrift => throw .isDirectory
  | .arrived q => if fs.isDirectoryAt q then throw .isDirectory else pure (fs.remove q)

/-- Removes an empty directory. It has to be named: a path that ends in `.` or `..` removes
nothing, and neither does one that ends in a link. -/
def removeDir (fs : FileSystem) (p : Path) : Except Fault FileSystem := do
  checkPath p
  match p.segments.getLast? with
  | none => throw .busy
  | some "." =>
    let _ ← fs.pursue .followed p (stepsAbove p)
    throw .invalidArgument
  | some ".." =>
    let _ ← fs.pursue .followed p (stepsAbove p)
    throw .notEmpty
  | some _ =>
    match ← fs.pursue .kept p p.segments with
    | .vacant _ | .adrift => throw .notFound
    | .arrived q =>
      if !fs.isDirectoryAt q then throw .notDirectory
      if !(fs.children q).isEmpty then throw .notEmpty
      pure (fs.remove q)

/-- Removes what a path names. What a directory holds is removed before the directory itself; if the
path leads nowhere after that, all is done. Links are not followed. -/
def removeAll (p : Path) : Action Fault Unit := do
  match ← Action.look (·.lead .kept p) with
  | .vacant _ => throw .notFound
  | .adrift => throw .invalidArgument
  | .arrived q =>
    let fs ← get
    if !fs.isDirectoryAt q then set (fs.remove q)
    else
      let cleared := fs.clear q
      set cleared
      match cleared.removeDir p with
      | .ok removed => set removed
      | .error .notFound => pure ()
      | .error e => throw e

/-- Makes a directory, after those above it if they are missing. An existing directory is fine. -/
def createDirAfter (above : Action Fault Unit) (p : Path) : Action Fault Unit := do
  match (← get).createDir p with
  | .ok fs => set fs
  | .error .notFound =>
    above
    match (← get).createDir p with
    | .ok fs => set fs
    | .error e => unless (← get).isDirectory p do throw e
  | .error e => unless (← get).isDirectory p do throw e

/-- Makes the directory that the first components of a path lead to, and those above it. -/
def createDirsAlong (cs : List Component) : (length : Nat) → Action Fault Unit
  | 0 => pure ()
  | n + 1 => createDirAfter (createDirsAlong cs n) (Path.ofComponents (cs.take (n + 1)))

/-- Makes a directory and the missing ones above it. An existing directory is fine; so is the
empty path. -/
def createDirs (p : Path) : Action Fault Unit :=
  if p.text = "" then pure ()
  else createDirAfter (createDirsAlong p.components (p.components.length - 1)) p

end FileSystem

end RealmBoot
