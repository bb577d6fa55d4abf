import ScriptWasm.Build.Compiler
import ScriptWasm.CommandLine.Usage
import ScriptWasm.Text.CodePoints

/-!
# Running the program

A run reads the file that is named, looks for libraries, and builds the module in the working
directory. It ends with a status and two texts; of these and of the files that it leaves, nothing
depends on anything but the arguments, the surroundings and the files that it finds.
-/

namespace ScriptWasm.CommandLine

variable {m : Type → Type} [Monad m] [Files m]

/-- Where the program is installed, where it runs, and in what environment. -/
structure Surroundings where
  installation : Path
  working : Path
  env : Environment

/-- How a run ends: a status, what is printed, and what is complained about. -/
structure Outcome where
  status : Nat
  output : String
  complaint : String
deriving DecidableEq, Repr

/-! ## Errors and their causes -/

/-- A text behind a mark, with its further lines indented as far as the mark. -/
def marked (mark indent text : String) : String :=
  mark ++ ("\n" ++ indent).intercalate ((Text.split '\n' text.toList).map String.ofList)

/-- The causes of an error, numbered if there are several. -/
def causeLines (causes : List String) : List String :=
  match causes with
  | [cause] => [marked "    " "    " cause]
  | _ => causes.zipIdx.map fun (cause, i) ↦
    marked ("".pushn ' ' (5 - (toString i).length) ++ toString i ++ ": ") "       " cause

/-- An error with its causes. -/
def errorText (error : String) (causes : List String) : String :=
  let lines := causeLines causes
  "Error: " ++ error ++
    (if lines.isEmpty then "" else "\n\nCaused by:\n" ++ "\n".intercalate lines) ++ "\n"

def failure (error : String) (causes : List String) : Outcome := ⟨1, "", errorText error causes⟩

/-- A failure to load, and what lies behind it. -/
def loadCauses (f : LoadFailure) : List String :=
  f.message ::
    match f with
    | .file e => [e.message]
    | .package (.malformed problem) => [problem]
    | .package .invalidModule => []

def discoveryCauses (e : DiscoveryError) : List String :=
  e.message ::
    match e with
    | .runtimeLoad _ cause => loadCauses cause
    | .referenceLoad _ cause => loadCauses cause
    | .binding _ => []

def buildCauses (e : BuildError) : List String :=
  e.detail ::
    match e with
    | .emission _ => []
    | .writing _ cause => [cause.message]

/-! ## Diagnostics -/

/-- A diagnostic with its source line and the advice, if there are any. -/
def diagnosticText (d : Diagnostic) : String :=
  d.text ++ "\n" ++
    (if d.sourceLine.isEmpty then "" else "    " ++ Text.trimEnd d.sourceLine ++ "\n") ++
    match d.suggestion with
    | some advice => s!"    help: {advice}\n"
    | none => ""

/-- The diagnostics that are kept, and the number of those that are not. -/
def reportText (r : Report) : String :=
  let hidden := r.total - r.errors.length
  String.join (r.errors.map diagnosticText) ++
    if 0 < hidden then s!"... and {hidden} more error(s)\n" else ""

/-! ## Running -/

/-- Builds the module of a file. -/
def compileFile (s : Surroundings) (file : Path) : m Outcome := do
  match ← Files.readText file with
  | .error e => return failure s!"Failed to read file: {file.text}" [e.message]
  | .ok text =>
    match file.stem? with
    | none => return failure s!"No file name in {file.text}" []
    | some outputName =>
      let config := DiscoveryConfig.forInstallation s.installation s.env
      match ← Compiler.new config with
      | .error e =>
        return failure s!"Failed to load libraries (runtime: {config.runtime.text})"
          (discoveryCauses e)
      | .ok compiler =>
        match (← compiler.build ⟨file.text, text⟩ outputName s.working).1 with
        | .error e => return failure e.message (buildCauses e)
        | .ok report =>
          if report.hasErrors then
            return ⟨1, "", reportText report ++
              errorText s!"Compilation failed with {report.total} error(s)" []⟩
          else return ⟨0, (s.working.join (outputName ++ ".wasm")).text ++ "\n", ""⟩

/-- Does what arguments ask for. -/
def run (s : Surroundings) (arguments : List String) : m Outcome := do
  match Request.ofArguments arguments with
  | .error e => return ⟨2, "", e.text⟩
  | .ok .help => return ⟨0, helpText, ""⟩
  | .ok .version => return ⟨0, versionText, ""⟩
  | .ok (.compile file) => compileFile s ⟨file⟩

end ScriptWasm.CommandLine
