import ScriptWasm.CommandLine.Run

/-!
# The program

The operations on files of the machine, and a run with its arguments, surroundings and streams.
-/

namespace ScriptWasm

/-- The number that the machine gives to a failure, if it does, and its description. -/
def describeFailure (e : IO.Error) : Option UInt32 × String :=
  match e with
  | .alreadyExists _ code details | .otherError code details | .resourceBusy code details
  | .resourceVanished code details | .unsupportedOperation code details
  | .hardwareFault code details | .unsatisfiedConstraints code details
  | .illegalOperation code details | .protocolError code details | .timeExpired code details
  | .interrupted _ code details | .noFileOrDirectory _ code details
  | .invalidArgument _ code details | .permissionDenied _ code details
  | .resourceExhausted _ code details | .inappropriateType _ code details
  | .noSuchThing _ code details => (some code, details)
  | .unexpectedEof => (none, "unexpected end of file")
  | .userError details => (none, details)

/-- A failure by its number, which some operations of the machine give with a minus sign. -/
def FileError.ofMachine (e : IO.Error) : FileError :=
  match describeFailure e with
  | (none, details) => .other details
  | (some code, details) =>
    let code := if code < 0x80000000 then code else -code
    if code = 2 then .notFound
    else if code = 20 then .notDirectory
    else if code = 21 then .isDirectory
    else if code = 36 then .nameTooLong
    else .other s!"{details.capitalize} (os error {code})"

/-- What an action gives, or why it fails. -/
def attempt {α : Type} (action : IO α) : IO (Except FileError α) := do
  match ← action.toBaseIO with
  | .ok a => return .ok a
  | .error e => return .error (.ofMachine e)

/-- The contents of a file. -/
def readBytes (p : Path) : IO Bytes := return (← IO.FS.readBinFile p.text).toList

/-- Writes bytes to a file that is opened in some way. -/
def writeBytes (p : Path) (mode : IO.FS.Mode) (bytes : Bytes) : IO Unit := do
  let file ← IO.FS.Handle.mk p.text mode
  file.write ⟨bytes.toArray⟩
  file.flush

instance : Files IO where
  read p := attempt (readBytes p)
  list p := attempt do
    return (← (← IO.FS.realPath p.text).readDir).toList.map (·.fileName)
  isFile p := do
    match ← attempt do return (← (← IO.FS.realPath p.text).metadata).type with
    | .ok .file => return true
    | _ => return false
  canonical p := attempt do return ⟨(← IO.FS.realPath p.text).toString⟩
  create p := attempt (writeBytes p .write [])
  append p bytes := attempt (writeBytes p .append bytes)
  sync p := attempt (writeBytes p .append [])
  rename p q := attempt (IO.FS.rename p.text q.text)
  remove p := attempt (IO.FS.removeFile p.text)
  copy p q := attempt do writeBytes q .write (← readBytes p)

/-- The variables that matter, as they are set. -/
def Environment.ofMachine : IO Environment := do
  let values ← Environment.consulted.mapM fun name ↦ return (name, ← IO.getEnv name)
  return fun name ↦ (values.lookup name).join

/-- Where the program is installed and runs. -/
def CommandLine.Surroundings.ofMachine : IO CommandLine.Surroundings := do
  let installation := (← IO.appPath).parent.getD "."
  return ⟨⟨installation.toString⟩, ⟨(← IO.currentDir).toString⟩, ← Environment.ofMachine⟩

end ScriptWasm

def main (arguments : List String) : IO UInt32 := do
  let surroundings ← ScriptWasm.CommandLine.Surroundings.ofMachine
  let outcome ← ScriptWasm.CommandLine.run surroundings arguments
  IO.print outcome.output
  IO.eprint outcome.complaint
  return outcome.status.toUInt32
