import ScriptWasm.Json.Source

/-!
# Spans

Where a statement stands in the source: lines and columns counted from one, with zeros throughout
when nothing is known.
-/

namespace ScriptWasm

structure Span where
  line : Nat
  column : Nat
  endLine : Nat
  endColumn : Nat
deriving DecidableEq, Repr, Inhabited

namespace Span

/-- The span of a statement of which no place is known. -/
def unknown : Span := ⟨0, 0, 0, 0⟩

/-- A single place. -/
def point (line column : Nat) : Span := ⟨line, column, line, column⟩

def isUnknown (s : Span) : Bool := s.line == 0

/-- Where the span starts. -/
def text (s : Span) : String := s!"{s.line}:{s.column}"

open Json in
/-- The parts of a span, each of which may be left out. -/
def members {R : Type → Type} [Source R] : List (Member R Span) :=
  [.defaulted "line" Source.word32 fun n s ↦ { s with line := n },
    .defaulted "column" Source.word32 fun n s ↦ { s with column := n },
    .defaulted "end_line" Source.word32 fun n s ↦ { s with endLine := n },
    .defaulted "end_column" Source.word32 fun n s ↦ { s with endColumn := n }]

open Json in
def form {R : Type → Type} [Source R] : R Span := Source.record "struct Span" unknown members

open Json in
def entries (s : Span) : List (String × Value) :=
  [("line", .natural s.line), ("column", .natural s.column), ("end_line", .natural s.endLine),
    ("end_column", .natural s.endColumn)]

open Json in
def toValue (s : Span) : Value := .object s.entries

end Span

end ScriptWasm
