import ScriptWasm.Emission.Tables
import ScriptWasm.Files.Basic
import ScriptWasm.Library.Package

/-!
# Discovering libraries

Before anything is compiled, the runtime support library, the libraries that are asked for and those
in two directories are loaded and scanned, in this order. The runtime and the libraries that are
asked for have to load: the first that does not is reported. What lies in the directories is taken
if it loads and passed over otherwise; the files of a directory are taken in the order of their
names.
-/

namespace ScriptWasm

variable {m : Type → Type} [Monad m] [Files m]

/-! ## Loading a library -/

/-- Why a file is not a library. -/
inductive LoadFailure where
  | file (error : FileError)
  | package (error : Manifest.PackageError)
deriving DecidableEq, Repr

def LoadFailure.message : LoadFailure → String
  | .file e => s!"i/o error: {e.message}"
  | .package e => e.message

/-- A library and the file that it comes from. -/
structure LoadedLibrary where
  path : Path
  library : Library
deriving Repr

/-- The library in a file with the given contents. A library that does not name its module is named
after the file. -/
def LoadedLibrary.ofBytes (path : Path) (bytes : Bytes) : Except LoadFailure LoadedLibrary :=
  match Manifest.ofModule? bytes with
  | .error e => .error (.package e)
  | .ok manifest? =>
    let manifest := manifest?.getD {}
    .ok ⟨path, ⟨manifest.module?.getD (path.stem?.getD ""), manifest⟩⟩

def loadLibrary (path : Path) : m (Except LoadFailure LoadedLibrary) := do
  match ← Files.read path with
  | .error e => return .error (.file e)
  | .ok bytes => return LoadedLibrary.ofBytes path bytes

/-! ## Configurations -/

/-- Where to look for libraries. -/
structure DiscoveryConfig where
  runtime : Path
  references : List Path := []
  /-- The directory of the libraries that come with the program. -/
  bundled? : Option Path := none
  /-- The directory of the libraries of the user. -/
  user? : Option Path := none
deriving DecidableEq, Repr

/-- The value of a variable of the environment. -/
abbrev Environment := String → Option String

/-- The directory of the libraries of the user: the one that is asked for, or the usual one. -/
def Environment.userLibraries? (env : Environment) : Option Path :=
  match env "LEXICO_USER_LIB" with
  | some dir => some ⟨dir⟩
  | none =>
    let data? : Option Path :=
      match env "XDG_DATA_HOME" with
      | some dir => some ⟨dir⟩
      | none => (env "HOME").map fun home ↦ (Path.mk home).join ".local/share"
    data?.map fun dir ↦ (dir.join "lexico").join "lib"

/-- Where to look for libraries from the directory that the program is installed in. -/
def DiscoveryConfig.forInstallation (directory : Path) (env : Environment) : DiscoveryConfig where
  runtime :=
    match env "LEXICO_RUNTIME" with
    | some path => ⟨path⟩
    | none => directory.join "lexico_runtime.wasm"
  bundled? := some (directory.join "lib")
  user? := env.userLibraries?

/-- The variables that say where to look for libraries. -/
def Environment.consulted : List String :=
  ["LEXICO_RUNTIME", "LEXICO_USER_LIB", "XDG_DATA_HOME", "HOME"]

/-! ## Discovery -/

inductive DiscoveryError where
  | runtimeLoad (path : Path) (cause : LoadFailure)
  | referenceLoad (path : Path) (cause : LoadFailure)
  | binding (error : BindingError)
deriving DecidableEq, Repr

def DiscoveryError.message : DiscoveryError → String
  | .runtimeLoad path cause =>
    s!"failed to load runtime support library '{path.text}': {cause.message}"
  | .referenceLoad path cause => s!"failed to load reference '{path.text}': {cause.message}"
  | .binding e => e.message

/-- What has been found. -/
structure Discovery where
  host : Host
  runtime : Path
  references : List Path
  /-- The files in the directories that loaded, in the order in which they were scanned. -/
  libraryFiles : List Path

/-- The extension of files in a directory that may be libraries. -/
def libraryExtension : String := "wasm"

/-- The files of a directory that may be libraries, in the order of their names. -/
def libraryCandidates (dir : Path) : m (List Path) := do
  match ← Files.list dir with
  | .error _ => return []
  | .ok names =>
    let paths := (names.mergeSort fun a b ↦ decide (a ≤ b)).map dir.join
    (paths.filter (·.hasExtension libraryExtension)).filterM Files.isFile

/-- Loads files, passing over those that do not load. -/
def loadAvailable : List Path → m (List LoadedLibrary)
  | [] => return []
  | p :: rest => do
    let first ← loadLibrary p
    let others ← loadAvailable rest
    return match first with
      | .ok l => l :: others
      | .error _ => others

/-- Loads the libraries that are asked for, up to the first that does not load. -/
def loadReferences : List Path → m (Except DiscoveryError (List LoadedLibrary))
  | [] => return .ok []
  | p :: rest => do
    match ← loadLibrary p with
    | .error e => return .error (.referenceLoad p e)
    | .ok first =>
      match ← loadReferences rest with
      | .error e => return .error e
      | .ok others => return .ok (first :: others)

def loadDirectory : Option Path → m (List LoadedLibrary)
  | none => return []
  | some dir => do loadAvailable (← libraryCandidates dir)

/-- What has been found in libraries that are loaded already. -/
def Discovery.of (config : DiscoveryConfig) (runtime : LoadedLibrary)
    (references libraries : List LoadedLibrary) : Except DiscoveryError Discovery :=
  match Bindings.resolve runtime.library with
  | .error e => .error (.binding e)
  | .ok operators =>
    let all := runtime :: references ++ libraries
    .ok ⟨⟨.scan (all.map (·.library)), operators⟩, runtime.path, config.references,
      libraries.map (·.path)⟩

/-- Loads and scans all libraries. -/
def discover (config : DiscoveryConfig) : m (Except DiscoveryError Discovery) := do
  match ← loadLibrary config.runtime with
  | .error e => return .error (.runtimeLoad config.runtime e)
  | .ok runtime =>
    match ← loadReferences config.references with
    | .error e => return .error e
    | .ok references =>
      let bundled ← loadDirectory config.bundled?
      let user ← loadDirectory config.user?
      return Discovery.of config runtime references (bundled ++ user)

end ScriptWasm
