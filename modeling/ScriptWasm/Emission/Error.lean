import ScriptWasm.Library.Registry
import ScriptWasm.Text.Quoted

/-!
# Why a module cannot be emitted

A program that passes analysis can be emitted. These errors are about the others, and about programs
that are too large or whose libraries contradict themselves.
-/

namespace ScriptWasm

/-- A name that stands for nothing. -/
inductive Unresolved where
  | variable (name : String)
  | function (source : ImportRef)
  | method (type name : String)
  | property (type name : String)
  | event (type name : String)
  | subroutine (name : String)
  | label (name : String)
  | text (contents : String)
deriving DecidableEq, Repr

def Unresolved.message : Unresolved → String
  | .variable name => s!"variable '{name}'"
  | .function source => s!"import {source.module}.{source.field}"
  | .method type name => s!"method {type}.{name}"
  | .property type name => s!"property {type}.{name}"
  | .event type name => s!"event {type}.{name}"
  | .subroutine name => s!"subroutine '{name}'"
  | .label name => s!"label '{name}'"
  | .text contents => "text literal " ++ Text.quoted contents

/-- A construct that has no code where it stands. -/
inductive Unsupported where
  | unreadable (type property : String)
  | unwritable (type property : String)
  | noValue (type method : String)
  | argumentCount (type method : String) (expected given : Nat)
  | labelInBlock (name : String)
  | subroutineInBlock (name : String)
  | repeatedLabel (name : String)
  | repeatedSubroutine (name : String)
  | missingIndex
  | handlerNotName (type event : String)
  | gotoWithoutLabels
deriving DecidableEq, Repr

def Unsupported.message : Unsupported → String
  | .unreadable type property => s!"property {type}.{property} cannot be read"
  | .unwritable type property => s!"property {type}.{property} cannot be written"
  | .noValue type method => s!"{type}.{method} returns no value"
  | .argumentCount type method expected given =>
    s!"{type}.{method} takes {expected} argument(s), {given} given"
  | .labelInBlock name => s!"label '{name}' inside a block"
  | .subroutineInBlock name => s!"subroutine '{name}' declared inside another block"
  | .repeatedLabel name => s!"label '{name}' declared twice"
  | .repeatedSubroutine name => s!"subroutine '{name}' declared twice"
  | .missingIndex => "array assignment without an index"
  | .handlerNotName type event => s!"handler for {type}.{event} must name a subroutine"
  | .gotoWithoutLabels => "goto in a routine without labels"

/-- What there can be too much of. -/
inductive Limit where
  | slots
  | subroutines
  | dataSegment
  | textLiteral
deriving DecidableEq, Repr

def Limit.message : Limit → String
  | .slots => "too many storage slots"
  | .subroutines => "too many subroutines"
  | .dataSegment => "too many data segment"
  | .textLiteral => "too many text literal"

inductive EmitError where
  | unresolved (what : Unresolved)
  | unsupported (what : Unsupported)
  | limitExceeded (what : Limit)
  | invalidModule
deriving DecidableEq, Repr

def EmitError.message : EmitError → String
  | .unresolved what => s!"unresolved symbol: {what.message}"
  | .unsupported what => s!"unsupported construct: {what.message}"
  | .limitExceeded what => s!"limit exceeded: {what.message}"
  | .invalidModule => "WASM validation failed"

end ScriptWasm
