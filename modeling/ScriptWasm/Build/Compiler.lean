import ScriptWasm.Build.Front
import ScriptWasm.Emission.Assemble
import ScriptWasm.Library.Discovery

/-!
# Building modules

A build compiles a source and, if nothing is wrong with it, writes the module and then puts the
files that it needs beside it.

A module is written to a file of another name first and moved in place when it is complete, so that
no one finds half of it. The files beside it are the runtime support library and the libraries that
were found in directories; one that cannot be copied is passed over, and none is copied over the
module.
-/

namespace ScriptWasm

variable {m : Type → Type} [Monad m] [Files m]

/-! ## Writing -/

/-- What is left undone if the first of two steps fails. -/
def andThen (first : m (Except FileError Unit)) (second : m (Except FileError Unit)) :
    m (Except FileError Unit) := do
  match ← first with
  | .error e => return .error e
  | .ok () => second

/-- Writes a file all at once: it is complete at `path`, or what was there is left. -/
def writeWhole (path partialPath : Path) (bytes : Bytes) : m (Except FileError Unit) := do
  let written ← andThen (Files.create partialPath) <| andThen (Files.append partialPath bytes) <|
    andThen (Files.sync partialPath) (Files.rename partialPath path)
  match written with
  | .ok () => return .ok ()
  | .error e =>
    let _ ← Files.remove partialPath
    return .error e

/-- Why a module is not written. -/
inductive BuildError where
  | emission (error : EmitError)
  | writing (path : Path) (error : FileError)
deriving DecidableEq, Repr

namespace BuildError

/-- What went wrong in emitting or writing. -/
def detail : BuildError → String
  | .emission e => e.message
  | .writing path e => s!"failed to write '{path.text}': {e.message}"

def message (e : BuildError) : String := s!"module emission failed: {e.detail}"

end BuildError

/-- Writes a module into a directory, and gives its path. -/
def writeModule (directory : Path) (fileName : String) (bytes : Bytes) :
    m (Except BuildError Path) := do
  let path := directory.join fileName
  match ← writeWhole path (directory.join (fileName ++ ".partial")) bytes with
  | .ok () => return .ok path
  | .error e => return .error (.writing path e)

/-- Emits a program and writes the module. Nothing is written if the program cannot be emitted. -/
def emitModule (h : Host) (p : Program) (source outputName : String) (directory : Path) :
    m (Except BuildError Path) := do
  match h.assemble p source with
  | .error e => return .error (.emission e)
  | .ok bytes => writeModule directory (outputName ++ ".wasm") bytes

/-! ## Packaging -/

/-- Whether two paths lead to the same thing, which exists. -/
def sameFile (p q : Path) : m Bool := do
  match ← Files.canonical p with
  | .error _ => return false
  | .ok a =>
    match ← Files.canonical q with
    | .error _ => return false
    | .ok b => return a = b

/-- Copies a file into a directory, unless it would replace the module or is there already. -/
def packageFile (directory module file : Path) : m Unit := do
  match file.fileName? with
  | none => return
  | some name =>
    let target := directory.join name
    if target.components = module.components then return
    if ← sameFile module target then return
    if ← sameFile file target then return
    let _ ← Files.copy file target

/-- The files that a module needs beside it. -/
def Discovery.supportFiles (d : Discovery) : List Path := d.runtime :: d.libraryFiles

/-- Puts the files that a module needs beside it. -/
def packageAll (directory module : Path) : List Path → m Unit
  | [] => return
  | file :: rest => do
    packageFile directory module file
    packageAll directory module rest

/-! ## The compiler -/

/-- The libraries that are compiled against, and what was wrong with the last source. -/
structure Compiler where
  discovery : Discovery
  errors : Report

namespace Compiler

def new (config : DiscoveryConfig) : m (Except DiscoveryError Compiler) := do
  return (← discover config).map fun d ↦ ⟨d, .empty⟩

/-- Parses and checks a source. -/
def compile (c : Compiler) (source : SourceText) : Option Program × Compiler :=
  let (program, report) := source.compile c.discovery.host.registry
  (program, { c with errors := report })

/-- Compiles a source and, if nothing is wrong with it, writes the module and packages it. -/
def build (c : Compiler) (source : SourceText) (outputName : String) (directory : Path) :
    m (Except BuildError Report × Compiler) := do
  let (program, c) := c.compile source
  match program with
  | none => return (.ok c.errors, c)
  | some p =>
    if c.errors.hasErrors then return (.ok c.errors, c)
    match ← emitModule c.discovery.host p source.text outputName directory with
    | .error e => return (.error e, c)
    | .ok module =>
      packageAll directory module c.discovery.supportFiles
      return (.ok c.errors, c)

end Compiler

end ScriptWasm
