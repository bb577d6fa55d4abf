import ScriptWasm.Diagnostic.Basic
import ScriptWasm.Json.Reader

/-!
# The JSON form of diagnostics

The parts of a diagnostic's span stand among its own members.
-/

namespace ScriptWasm

open Json

def Category.form {R : Type → Type} [Source R] : R Category :=
  Source.choice (Category.all.map fun c ↦ (c.word, c))

namespace Diagnostic

/-- A diagnostic before any member has been read. -/
def blank : Diagnostic := ⟨"", 0, .program, "", .unknown, "", none⟩

def members {R : Type → Type} [Source R] : List (Member R Diagnostic) :=
  [.needed "file" Source.text fun s d ↦ { d with file := s },
    .needed "code" (Source.natural UInt16.size "u16") fun n d ↦ { d with code := n },
    .needed "category" Category.form fun c d ↦ { d with category := c },
    .needed "message" Source.text fun s d ↦ { d with message := s },
    .needed "source_line" Source.text fun s d ↦ { d with sourceLine := s },
    .defaulted "suggestion" (Source.optional Source.text) fun s d ↦ { d with suggestion := s }]

/-- The members that are not the diagnostic's own hold its span. -/
def withSpan (d : Diagnostic) (others : List (String × Value)) : Except Problem Diagnostic := do
  let span ← (Span.form : Decoder Span) (.object others)
  return { d with span := span }

def form {R : Type → Type} [Source R] : R Diagnostic :=
  Source.gathered "struct CompileError" blank members withSpan

def toValue (d : Diagnostic) : Value :=
  .object <|
    [("file", .string d.file), ("code", .natural d.code), ("category", .string d.category.word),
      ("message", .string d.message)]
    ++ d.span.entries
    ++ [("source_line", .string d.sourceLine)]
    ++ (d.suggestion.map fun s ↦ ("suggestion", Value.string s)).toList

end Diagnostic

namespace Report

def form {R : Type → Type} [Source R] : R Report :=
  Source.record "struct CompileErrors" empty
    [.needed "errors" (Source.list Diagnostic.form) fun ds r ↦ { r with errors := ds },
      .needed "total_errors" (Source.natural UInt64.size "usize") fun n r ↦ { r with total := n }]

def toValue (r : Report) : Value :=
  .object [("errors", .array (r.errors.map (·.toValue))), ("total_errors", .natural r.total)]

end Report

end ScriptWasm
