import ScriptWasm.Source.Text

/-!
# Diagnostics

What is wrong with a program is a `Complaint`: a cause with the names that are involved. Code,
wording and advice follow from it. A `Diagnostic` is a complaint as it is shown, with the file, the
place and the source line; a `Report` is the list of diagnostics of one compilation, of which only
the first twenty are kept and all are counted.
-/

namespace ScriptWasm

/-- The kind of a library member. -/
inductive MemberKind where
  | method
  | property
  | event
deriving DecidableEq, Repr

def MemberKind.word : MemberKind → String
  | .method => "method"
  | .property => "property"
  | .event => "event"

/-- Why a program is rejected. -/
inductive Complaint where
  | malformedProgram (problem : String)
  | duplicateVariable (name : String)
  | unknownType (type : String)
  | unknownMember (type : String) (kind : MemberKind) (member : String)
  | wrongArgumentCount (type method : String) (expected given : Nat)
  | noReturnValue (type method : String)
  | notReadable (type property : String)
  | notWritable (type property : String)
  | handlerNotSubroutine (type event : String) (name : String)
  | handlerNotName (type event : String)
  | undeclaredVariable (name : String)
  | undefinedLabel (label : String)
  | undefinedSubroutine (name : String)
  | duplicateLabel (label : String)
  | duplicateSubroutine (name : String)
  | labelInBlock (label : String)
  | nestedSubroutine (name : String)
  | missingIndex (array : String)
deriving DecidableEq, Repr

namespace Complaint

def code : Complaint → Nat
  | .malformedProgram .. => 100
  | .duplicateVariable .. => 101
  | .unknownType .. => 200
  | .unknownMember .. => 201
  | .wrongArgumentCount .. => 202
  | .noReturnValue .. => 203
  | .notReadable .. => 204
  | .notWritable .. => 205
  | .handlerNotSubroutine .. => 206
  | .handlerNotName .. => 206
  | .undeclaredVariable .. => 300
  | .undefinedLabel .. => 301
  | .undefinedSubroutine .. => 302
  | .duplicateLabel .. => 303
  | .duplicateSubroutine .. => 304
  | .labelInBlock .. => 400
  | .nestedSubroutine .. => 401
  | .missingIndex .. => 402

def message : Complaint → String
  | .malformedProgram problem => s!"Malformed program: {problem}"
  | .duplicateVariable name => s!"Variable '{name}' is declared more than once"
  | .unknownType type => s!"Unknown library type '{type}'"
  | .unknownMember type kind member => s!"'{type}' has no {kind.word} '{member}'"
  | .wrongArgumentCount type method expected given =>
    s!"'{type}.{method}' takes {expected} argument(s) but {given} were given"
  | .noReturnValue type method => s!"'{type}.{method}' does not return a value"
  | .notReadable type property => s!"Property '{type}.{property}' cannot be read"
  | .notWritable type property => s!"Property '{type}.{property}' cannot be assigned"
  | .handlerNotSubroutine type event name =>
    s!"Handler for '{type}.{event}' is invalid: '{name}' is not a subroutine"
  | .handlerNotName type event =>
    s!"Handler for '{type}.{event}' is invalid: the value is not a subroutine name"
  | .undeclaredVariable name => s!"Variable '{name}' is not declared"
  | .undefinedLabel label => s!"Label '{label}' is not defined in this routine"
  | .undefinedSubroutine name => s!"Subroutine '{name}' is not defined"
  | .duplicateLabel label => s!"Label '{label}' is defined more than once"
  | .duplicateSubroutine name => s!"Subroutine '{name}' is declared more than once"
  | .labelInBlock label => s!"Label '{label}' must not appear inside a block"
  | .nestedSubroutine name => s!"Subroutine '{name}' must be declared at the top level"
  | .missingIndex array => s!"Assignment to an element of '{array}' has no index"

/-- What could be done about it. -/
def advice : Complaint → Option String
  | .handlerNotSubroutine .. => some "assign the name of a subroutine declared with Sub"
  | .handlerNotName .. => some "assign the name of a subroutine declared with Sub"
  | .undeclaredVariable name => some s!"add '{name}' to the variable list"
  | _ => none

end Complaint

/-! ## Diagnostics -/

/-- What area a code belongs to. -/
inductive Category where
  | program
  | library
  | scope
  | nesting
deriving DecidableEq, Repr

namespace Category

def word : Category → String
  | .program => "syntax"
  | .library => "library"
  | .scope => "scope"
  | .nesting => "structure"

def all : List Category := [.program, .library, .scope, .nesting]

/-- The area is decided by the hundreds of the code. -/
def ofCode (code : Nat) : Category :=
  if 200 ≤ code ∧ code ≤ 299 then .library
  else if 300 ≤ code ∧ code ≤ 399 then .scope
  else if 400 ≤ code ∧ code ≤ 499 then .nesting
  else .program

end Category

structure Diagnostic where
  file : String
  code : Nat
  category : Category
  message : String
  span : Span
  sourceLine : String
  suggestion : Option String
deriving DecidableEq, Repr

namespace Diagnostic

/-- A complaint about the statement at a span of a source. -/
def of (source : SourceText) (complaint : Complaint) (span : Span) : Diagnostic where
  file := source.name
  code := complaint.code
  category := .ofCode complaint.code
  message := complaint.message
  span := span
  sourceLine := source.lineFor span
  suggestion := complaint.advice

/-- The diagnostic on one line. -/
def text (d : Diagnostic) : String :=
  s!"{d.file}:{d.span.text}: E{d.code} [{d.category.word}] {d.message}"

end Diagnostic

/-! ## Reports -/

/-- The diagnostics that are kept, and the number of all that were reported. -/
structure Report where
  errors : List Diagnostic
  total : Nat
deriving DecidableEq, Repr

namespace Report

def empty : Report := ⟨[], 0⟩

/-- How many diagnostics are kept. -/
def capacity : Nat := 20

def push (r : Report) (d : Diagnostic) : Report :=
  ⟨if r.errors.length < capacity then r.errors ++ [d] else r.errors, r.total + 1⟩

def pushAll (r : Report) (ds : List Diagnostic) : Report := ds.foldl push r

def hasErrors (r : Report) : Bool := 0 < r.total

end Report

end ScriptWasm
