import ScriptWasm.Emission.Tables

/-!
# Filling the tables

The first walk over a program. It visits everything in the order in which it is written, and adds
what code will refer to: the function behind a call before those behind its arguments, a setter
before the value that is assigned, a label or a subroutine where it is declared. Bodies of
subroutines are walked where they stand, for the labels and functions in them.

Where a statement stands decides whether it may declare something: labels belong to a routine
itself, not to a block in it, and subroutines to the routine that a program starts in.
-/

namespace ScriptWasm

open Wasm

/-- Where a statement stands: in which routine, and in how many blocks of it. -/
structure Place where
  routine : Routine
  nesting : Nat
deriving DecidableEq, Repr

namespace Place

/-- The beginning of a routine. -/
def top (routine : Routine) : Place := ⟨routine, 0⟩

/-- One block further in. -/
def inner (p : Place) : Place := { p with nesting := p.nesting + 1 }

def isNested (p : Place) : Bool := 0 < p.nesting

end Place

namespace Tables

variable (h : Host)

/-- Adds the function behind a method call. -/
def prepareCall (t : Tables) (type method : String) (given : Nat) : Except EmitError Tables := do
  let m ← h.method type method
  if m.paramCount = given then return (t.addCapability m.source m.signature).2
  else throw (.unsupported (.argumentCount type method m.paramCount given))

/-- A method that is called for its value has one. -/
def checkReturns (type method : String) : Except EmitError Unit := do
  let m ← h.method type method
  if m.returnsValue then return () else throw (.unsupported (.noValue type method))

mutual

def prepareExpr (t : Tables) : Expr → Except EmitError Tables
  | .number _ => return t
  | .variable _ => return t
  | .text text => do return (← t.addText text).2
  | .index _ indices => prepareExprs t indices
  | .property type name => do
    let source ← h.getter type name
    return (t.addCapability source getterSignature).2
  | .call type method args => do
    checkReturns h type method
    let t ← t.prepareCall h type method args.length
    prepareExprs t args
  | .binary _ left right => do
    let t ← prepareExpr t left
    prepareExpr t right
  | .negate operand => prepareExpr t operand

def prepareExprs (t : Tables) : List Expr → Except EmitError Tables
  | [] => return t
  | e :: rest => do
    let t ← prepareExpr t e
    prepareExprs t rest

end

/-- The handler of an event is a subroutine, which may be declared later, so it is not looked for.
-/
def prepareAssign (t : Tables) (value : Expr) : Target → Except EmitError Tables
  | .variable _ => t.prepareExpr h value
  | .index _ indices => do
    let t ← t.prepareExprs h indices
    t.prepareExpr h value
  | .property type name => do
    let source ← h.setter type name
    (t.addCapability source setterSignature).2.prepareExpr h value
  | .event type name => do
    let e ← h.event type name
    return (t.addCapability e.subscribe setterSignature).2

mutual

def prepareStmt (t : Tables) (p : Place) : Stmt → Except EmitError Tables
  | .assign target value _ => t.prepareAssign h value target
  | .call type method args _ => do
    let t ← t.prepareCall h type method args.length
    t.prepareExprs h args
  | .cond condition body arms otherwise _ => do
    let t ← t.prepareExpr h condition
    let t ← prepareStmts t p.inner body
    let t ← prepareArms t p.inner arms
    prepareStmts t p.inner otherwise
  | .while condition body _ => do
    let t ← t.prepareExpr h condition
    prepareStmts t p.inner body
  | .for _ start stop step body _ => do
    let t ← t.prepareExpr h start
    let t ← t.prepareExpr h stop
    let t ← t.prepareExprs h step.toList
    prepareStmts t p.inner body
  | .label name _ => do
    if p.isNested then throw (.unsupported (.labelInBlock name))
    else return (← t.declareLabel p.routine name).2
  | .sub name body _ => do
    if p.isNested || p.routine ≠ .entry then throw (.unsupported (.subroutineInBlock name))
    else
      let (index, t) ← t.declareSubroutine name
      prepareStmts t (.top (.subroutine index)) body
  | .goto _ _ => return t
  | .callSub _ _ => return t
  | .empty _ => return t

def prepareStmts (t : Tables) (p : Place) : List Stmt → Except EmitError Tables
  | [] => return t
  | s :: rest => do
    let t ← prepareStmt t p s
    prepareStmts t p rest

def prepareArms (t : Tables) (p : Place) : List Arm → Except EmitError Tables
  | [] => return t
  | .mk condition body :: rest => do
    let t ← t.prepareExpr h condition
    let t ← prepareStmts t p body
    prepareArms t p rest

end

/-- The tables of a program. -/
def ofProgram (program : Program) : Except EmitError Tables := do
  let t ← (start h.operators).allocateSlots program.symbols
  t.prepareStmts h (.top .entry) program.body

end Tables

end ScriptWasm
