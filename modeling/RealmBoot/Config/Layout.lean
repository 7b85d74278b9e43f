import RealmBoot.Config.Failure
import RealmBoot.Config.Problem
import RealmBoot.Files.Access
import RealmBoot.Surroundings
import RealmBoot.Text.Blank

/-!
# Directory Layout

Where the host application, the extension modules, the program's own archives and the cache are,
and how archives are recognised and combined.
-/

namespace RealmBoot

/-- The layout settings. -/
structure LayoutConfig where
  /-- The unpacked host application. -/
  hostDir? : Option Path := none
  /-- A directory of extension modules, or a plugin list. -/
  plugins : Path := ⟨"plugins.txt"⟩
  /-- The program's own archives. -/
  appRepo? : Option Path := none
  /-- The directory that holds the setup and payload archives. -/
  libPath? : Option Path := none
  /-- The cache of extension archives. -/
  cacheDir? : Option Path := none
  /-- Where the host keeps its archives, below its directory. -/
  hostLibSubdir : String := "WEB-INF/lib"
  /-- The archive that launches the host, below its directory. -/
  hostLauncher : String := "winstone.jar"
  /-- The archives of the repository that belong to the host realm. -/
  compatPath : String := "javax/servlet"
  /-- The archives of the repository that belong to the payload. -/
  payloadPath : String := "io/jenkins/jenkinsfile-runner/payload"
  /-- The extensions of module archives. -/
  moduleExtensions : List String := ["jar"]
  /-- The extensions of extension modules. -/
  extensionModuleExtensions : List String := ["jpi", "hpi", "jpl"]
  /-- How the setup realm and the extension modules are combined. -/
  fallbackPolicy : String := "first-defined"
deriving DecidableEq, Repr, Inhabited

namespace LayoutConfig

/-- The host directory, which has to be set. -/
def hostDir (l : LayoutConfig) : Except ConfigError Path :=
  match l.hostDir? with
  | some dir => .ok dir
  | none => .error (.missingField "layout.host_dir (-w/--host-dir)")

/-- The program's own archives; unless set, next to the directory of the program. -/
def appRepo (l : LayoutConfig) (s : Surroundings) : Except ConfigError Path :=
  match l.appRepo? with
  | some repo => .ok repo
  | none =>
    match s.executable.parent?.bind Path.parent? with
    | some install => .ok (install.child "repo")
    | none => .error (.missingField "layout.app_repo")

/-- The directory of the setup and payload archives; unless set, next to the program's own
archives. -/
def libPath (l : LayoutConfig) (s : Surroundings) : Except ConfigError Path :=
  match l.libPath? with
  | some lib => .ok lib
  | none => (l.appRepo s).map fun repo => (repo.child "..").child "lib"

/-- The cache; unless set, in the home directory of the user. -/
def cache? (l : LayoutConfig) (s : Surroundings) : Option Path :=
  match l.cacheDir? with
  | some dir => some dir
  | none => s.homeDir?.map (·.child ".pipeline-runner")

/-- The fallback policies that a layout may name. -/
def fallbackPolicies : List String := ["first-defined", "unanimous"]

/-- What is wrong with a list of extensions. -/
def extensionProblems (field : String) (list : List String) : List ConfigProblem :=
  (if list.isEmpty then [.noExtensions field] else []) ++
    (list.filter fun e => e.isEmpty || e.toList.head? = some '.').map (.badExtension field)

/-- What is wrong with a path that must not be blank. -/
def blankProblems (field value : String) : List ConfigProblem :=
  if Text.isBlankText value then [.blank field] else []

/-- What is wrong with a layout. -/
def problems (l : LayoutConfig) (fs : FileSystem) : List ConfigProblem :=
  extensionProblems "layout.module_extensions" l.moduleExtensions ++
  extensionProblems "layout.extension_module_extensions" l.extensionModuleExtensions ++
  (if fallbackPolicies.contains l.fallbackPolicy then []
    else [.fallbackPolicy l.fallbackPolicy fallbackPolicies]) ++
  blankProblems "layout.host_lib_subdir" l.hostLibSubdir ++
  blankProblems "layout.host_launcher" l.hostLauncher ++
  blankProblems "layout.payload_path" l.payloadPath ++
  match l.hostDir? with
  | none => [.noHostDir]
  | some dir => if fs.isDirectory dir then [] else [.missingHostDir dir]

end LayoutConfig

end RealmBoot
