import ScriptWasm.Analysis.Check
import ScriptWasm.Program.Parse

/-!
# From source to program

A source is parsed, and a program that comes out of it is checked, even if something has been wrong
with it already.
-/

namespace ScriptWasm

/-- The program of a source, if there is one, and everything that is wrong with it. -/
def SourceText.compile (source : SourceText) (r : Registry) : Option Program × Report :=
  match Program.parse source with
  | (none, found) => (none, Report.empty.pushAll found)
  | (some p, found) => (some p, Report.empty.pushAll (found ++ p.analyze r source))

end ScriptWasm
