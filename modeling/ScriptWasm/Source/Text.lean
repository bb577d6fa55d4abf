import ScriptWasm.Source.Span
import ScriptWasm.Text.Slice

/-!
# Source texts

A named text, kept for showing the line that a diagnostic points at. Lines are the pieces between
newlines; a carriage return at the end of a line is not part of it. A line is found by the offsets
at which lines start, and cut out of the text between two of them.
-/

namespace ScriptWasm

structure SourceText where
  name : String
  text : String
deriving DecidableEq, Repr, Inhabited

namespace SourceText

/-- The offsets at which lines start. The first line starts with the text, and every other one
behind a newline. -/
def lineStarts (s : SourceText) : List Nat :=
  0 :: (Text.offsetsFrom '\n' 0 s.text.toList).map (· + 1)

/-- A piece without the carriage returns at its end. -/
def chomp (cs : List Char) : List Char := (cs.reverse.dropWhile (· == '\r')).reverse

def lineCount (s : SourceText) : Nat := s.lineStarts.length

/-- The offsets between which the line with a given number stands, counted from one. The newline
behind it is left out; behind the last line there is none. -/
def bounds? (s : SourceText) (n : Nat) : Option (Nat × Nat) :=
  if n = 0 then none
  else s.lineStarts[n - 1]?.map fun start ↦
    (start, (s.lineStarts[n]?.map (· - 1)).getD s.text.utf8ByteSize)

/-- The text between the bounds of a line. -/
def piece? (s : SourceText) (n : Nat) : Option String := do
  let (start, stop) ← s.bounds? n
  Text.slice? s.text start stop

/-- The line with a given number, counted from one. -/
def line? (s : SourceText) (n : Nat) : Option String :=
  (s.piece? n).map fun piece ↦ String.ofList (chomp piece.toList)

/-- The line a span starts on, or nothing when there is no such line. -/
def lineFor (s : SourceText) (span : Span) : String := (s.line? span.line).getD ""

end SourceText

end ScriptWasm
