import ScriptWasm.Files.Path
import ScriptWasm.Text.Bytes

/-!
# Files

What the program does with files is written against a small set of operations, in whatever monad
provides them: a tree of files as a value, or the machine that the program runs on. Every operation
can fail on its own, so what is promised about the program can say what happens when one does.
-/

namespace ScriptWasm

/-- Why an operation on a file fails. -/
inductive FileError where
  | notFound
  | notDirectory
  | isDirectory
  | nameTooLong
  /-- A path holds the character that ends paths. -/
  | nulInName
  /-- The contents are not a text. -/
  | notText
  /-- Anything else, as the machine describes it. -/
  | other (description : String)
deriving DecidableEq, Repr

def FileError.message : FileError → String
  | .notFound => "No such file or directory (os error 2)"
  | .notDirectory => "Not a directory (os error 20)"
  | .isDirectory => "Is a directory (os error 21)"
  | .nameTooLong => "File name too long (os error 36)"
  | .nulInName => "file name contained an unexpected NUL byte"
  | .notText => "stream did not contain valid UTF-8"
  | .other description => description

/-- Operations on files. -/
class Files (m : Type → Type) where
  /-- The contents of a file. -/
  read : Path → m (Except FileError Bytes)
  /-- The names in a directory, in no particular order. -/
  list : Path → m (Except FileError (List String))
  isFile : Path → m Bool
  /-- The path without detours of something that exists. -/
  canonical : Path → m (Except FileError Path)
  /-- Makes an empty file, or empties one. -/
  create : Path → m (Except FileError Unit)
  /-- Adds bytes to the end of a file. -/
  append : Path → Bytes → m (Except FileError Unit)
  /-- Waits until the contents of a file are safe. -/
  sync : Path → m (Except FileError Unit)
  /-- Moves a file to another path, in place of a file that is there. -/
  rename : Path → Path → m (Except FileError Unit)
  remove : Path → m (Except FileError Unit)
  /-- Makes a file with the contents of another, or replaces the contents of one. -/
  copy : Path → Path → m (Except FileError Unit)

/-- The contents of a file that is a text. -/
def Files.readText {m : Type → Type} [Monad m] [Files m] (p : Path) :
    m (Except FileError String) := do
  match ← Files.read p with
  | .error e => return .error e
  | .ok bytes =>
    match textOf? bytes with
    | some s => return .ok s
    | none => return .error .notText

end ScriptWasm
