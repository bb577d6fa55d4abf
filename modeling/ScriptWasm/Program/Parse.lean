import ScriptWasm.Diagnostic.Basic
import ScriptWasm.Program.Form
import ScriptWasm.Text.CodePoints

/-!
# Reading a source text

A source is a program with its variables, a program whose variables are left to be collected, or a
bare list of statements. Which of them it is meant to be is decided by its first character that is
not blank.
-/

namespace ScriptWasm.Program

open Json

/-- Declares names one after the other; a name that is there already is complained about. -/
def declareAll (source : SourceText) :
    List String → SymbolTable → List Diagnostic → SymbolTable × List Diagnostic
  | [], table, found => (table, found.reverse)
  | name :: rest, table, found =>
    if table.contains name then
      declareAll source rest table (.of source (.duplicateVariable name) .unknown :: found)
    else declareAll source rest (table.declare name) found

/-- Whether a text is meant to be a bare list of statements. -/
def isBareList (text : String) : Bool := (Text.dropBlanks text).head? == some '['

/-- The declared variables and the body of a source text. -/
def readSource (text : String) : Except Fault Declared :=
  if isBareList text then (Json.read bodyForm text).map fun body ↦ ⟨none, body⟩
  else Json.read declaredForm text

/-- The diagnostic for a text that cannot be read. -/
def malformed (source : SourceText) (f : Fault) : Diagnostic :=
  let p := (f.position? (bytesOf source.text)).getD ⟨0, 0⟩
  .of source (.malformedProgram f.problem.message) (.point p.line p.column)

/-- The program of a source and what is wrong with it. Without a program there is exactly one
diagnostic. -/
def parse (source : SourceText) : Option Program × List Diagnostic :=
  match readSource source.text with
  | .error f => (none, [malformed source f])
  | .ok declared =>
    match declared.names? with
    | none => (some (.ofBody declared.body), [])
    | some names =>
      let (symbols, found) := declareAll source names .empty []
      (some ⟨symbols, declared.body⟩, found)

end ScriptWasm.Program
