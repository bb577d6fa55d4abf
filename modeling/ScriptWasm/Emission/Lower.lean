import ScriptWasm.Emission.Tables
import ScriptWasm.Wasm.Section

/-!
# Emitting code

The second walk over a program gives the code of every routine. The tables are complete and are only
looked at. The code of an expression leaves one value on the operand stack; the code of a statement
leaves the stack as it was.

Locals are the only state of the walk. What code stands in is passed down: the routine, the number
of blocks that are open, and the loop that a `goto` goes back to. A routine with labels is such a
loop around its segments; a `goto` notes the segment of its label in a local and branches to the
loop, which runs that segment and those behind it.
-/

namespace ScriptWasm

open Wasm

/-- What code refers to. -/
structure Setting where
  host : Host
  tables : Tables

/-- The loop that segments are run from: the local that holds the next segment, and the number of
blocks that are open just inside the loop. -/
structure Dispatch where
  selector : Nat
  level : Nat
deriving DecidableEq, Repr

/-- What code stands in. -/
structure Scope where
  routine : Routine
  depth : Nat
  dispatch : Option Dispatch
deriving DecidableEq, Repr

namespace Scope

/-- The beginning of a routine. -/
def top (routine : Routine) : Scope := ⟨routine, 0, none⟩

/-- Inside one more block. -/
def opened (s : Scope) : Scope := { s with depth := s.depth + 1 }

/-- Outside of the innermost block. -/
def closed (s : Scope) : Scope := { s with depth := s.depth - 1 }

/-- Inside the loop that segments are run from, which has just been opened. -/
def dispatching (s : Scope) (selector : Nat) : Scope :=
  { s with dispatch := some ⟨selector, s.depth⟩ }

/-- The local that a `goto` sets, and how many blocks it leaves. -/
def jump (s : Scope) : Except EmitError (Nat × Nat) :=
  match s.dispatch with
  | some d => .ok (d.selector, s.depth - d.level)
  | none => .error (.unsupported .gotoWithoutLabels)

end Scope

/-! ## Locals -/

/-- The types of the locals of a routine. -/
abbrev Locals := List ValType

/-- A step of the walk: it may add locals. -/
abbrev Lowering := StateT Locals (Except EmitError)

/-- Adds a local and gives its index. -/
def addLocal (type : ValType) : Lowering Nat := fun ls ↦ .ok (ls.length, ls ++ [type])

/-- The operation behind a binary operator. -/
def BinaryOp.operator : BinaryOp → Operator
  | .add => .add
  | .subtract => .subtract
  | .multiply => .multiply
  | .divide => .divide
  | .greaterThan => .greaterThan
  | .greaterThanOrEqual => .greaterThanOrEqual
  | .lessThan => .lessThan
  | .lessThanOrEqual => .lessThanOrEqual
  | .equal => .equal
  | .notEqual => .notEqual
  | .and => .and
  | .or => .or

namespace Setting

variable (w : Setting)

/-! ## Expressions -/

/-- A call of an imported function. -/
def callImport (source : ImportRef) : Except EmitError Instr := .call <$> w.tables.imported source

/-- A call of an operation on values. -/
def callOperator (op : Operator) : Except EmitError Instr :=
  w.callImport (w.host.operators.handle op).source

/-- The value of a number. -/
def lowerNumber (x : Binary64) : Except EmitError (List Instr) := do
  return [.f64Const x, ← w.callOperator .ofNumber]

mutual

def lowerExpr : Expr → Except EmitError (List Instr)
  | .number x => w.lowerNumber x
  | .text text => do
    let e ← w.tables.textExtent text
    return [.i32Const (UInt32.ofNat e.start), .i32Const (UInt32.ofNat e.length),
      ← w.callOperator .ofText]
  | .variable name => do return [.globalGet (← w.tables.slot name)]
  | .index array indices => do
    let slot ← w.tables.slot array
    return .globalGet slot :: (← lowerPath indices)
  | .property type name => do
    let source ← w.host.getter type name
    return [← w.callImport source]
  | .call type method args => do
    let m ← w.host.method type method
    let args ← lowerArgs args
    return args ++ [← w.callImport m.source]
  | .binary op left right => do
    let left ← lowerExpr left
    let right ← lowerExpr right
    return left ++ right ++ [← w.callOperator op.operator]
  | .negate operand => do
    let operand ← lowerExpr operand
    return operand ++ [← w.callOperator .negate]

/-- The values of arguments, one after the other. -/
def lowerArgs : List Expr → Except EmitError (List Instr)
  | [] => return []
  | e :: rest => do
    let first ← lowerExpr e
    return first ++ (← lowerArgs rest)

/-- Follows indices from the array on the stack to an element. -/
def lowerPath : List Expr → Except EmitError (List Instr)
  | [] => return []
  | e :: rest => do
    let index ← lowerExpr e
    let get ← w.callOperator .getElement
    return index ++ get :: (← lowerPath rest)

end

/-- A value as a condition. -/
def lowerCondition (e : Expr) : Except EmitError (List Instr) := do
  let value ← w.lowerExpr e
  return value ++ [← w.callOperator .toBoolean]

/-! ## Assignments -/

/-- Leaves the array in a local with `value` stored at `indices` on the stack. Every level reads the
inner array, updates it, and writes it back. -/
def lowerStore (array : Nat) (value : Expr) : List Expr → Lowering (List Instr)
  | [] => throw (.unsupported .missingIndex)
  | [last] => do
    let index ← w.lowerExpr last
    let value ← w.lowerExpr value
    return .localGet array :: index ++ value ++ [← w.callOperator .setElement]
  | first :: rest => do
    let position ← addLocal .i32
    let inner ← addLocal .i32
    let index ← w.lowerExpr first
    let get ← w.callOperator .getElement
    let store ← lowerStore inner value rest
    return index ++ [.localSet position, .localGet array, .localGet position, get, .localSet inner,
      .localGet array, .localGet position] ++ store ++ [← w.callOperator .setElement]

def lowerAssign (value : Expr) : Target → Lowering (List Instr)
  | .variable name => do
    let value ← w.lowerExpr value
    return value ++ [.globalSet (← w.tables.slot name)]
  | .index array indices => do
    let slot ← w.tables.slot array
    let whole ← addLocal .i32
    let store ← w.lowerStore whole value indices
    return [.globalGet slot, .localSet whole] ++ store ++ [.globalSet slot]
  | .property type name => do
    let source ← w.host.setter type name
    let value ← w.lowerExpr value
    return value ++ [← w.callImport source]
  | .event type name => do
    match value with
    | .variable handler =>
      let e ← w.host.event type name
      let index ← w.tables.subroutine handler
      return [.i32Const (UInt32.ofNat index), ← w.callImport e.subscribe]
    | _ => throw (.unsupported (.handlerNotName type name))

/-! ## Loops -/

/-- Runs a body as long as a condition holds. -/
def whileLoop (condition body : List Instr) : Instr :=
  .block .empty [.loop .empty (condition ++ [.i32Eqz, .brIf 1] ++ body ++ [.br 0])]

/-- Compares the variable of a counting loop with the end. -/
def compareEnd (op : Operator) (slot stop : Nat) : Except EmitError (List Instr) := do
  return [.globalGet slot, .localGet stop, ← w.callOperator op]

/-- Whether a step is negative, as a word in a local. -/
def lowerDescending (step : Nat) : Lowering (Nat × List Instr) := do
  let flag ← addLocal .i32
  let zero ← w.lowerNumber .zero
  return (flag, .localGet step :: zero ++
    [← w.callOperator .lessThan, ← w.callOperator .toBoolean, .localSet flag])

/-- The number one. -/
def one : Binary64 := .ofNat 1

/-- What stands in front of a counting loop, and whether to go on. The variable is set, then end and
step are evaluated once. With a given step the direction of the comparison depends on its sign. -/
def lowerBounds (slot stop by_ : Nat) (start last : Expr) :
    Option Expr → Lowering (List Instr × List Instr)
  | none => do
    let start ← w.lowerExpr start
    let last ← w.lowerExpr last
    let step ← w.lowerNumber one
    return (start ++ .globalSet slot :: last ++ .localSet stop :: step ++ [.localSet by_],
      (← w.compareEnd .lessThanOrEqual slot stop) ++ [← w.callOperator .toBoolean])
  | some step => do
    let start ← w.lowerExpr start
    let last ← w.lowerExpr last
    let step ← w.lowerExpr step
    let (flag, descending) ← w.lowerDescending by_
    let down ← w.compareEnd .greaterThanOrEqual slot stop
    let up ← w.compareEnd .lessThanOrEqual slot stop
    return (start ++ .globalSet slot :: last ++ .localSet stop :: step ++ .localSet by_ ::
        descending,
      [.localGet flag, .ifElse (.value .i32) down up, ← w.callOperator .toBoolean])

/-- A conditional, with an alternative if there is one. -/
def conditional (yes : List Instr) : Option (List Instr) → Instr
  | none => .ifThen .empty yes
  | some no => .ifElse .empty yes no

/-! ## Statements -/

mutual

def lowerStmt (s : Scope) : Stmt → Lowering (List Instr)
  | .assign target value _ => w.lowerAssign value target
  | .call type method args _ => do
    let m ← w.host.method type method
    let args ← w.lowerArgs args
    let call ← w.callImport m.source
    return args ++ call :: if m.returnsValue then [.drop] else []
  | .cond condition body arms otherwise _ => do
    let condition ← w.lowerCondition condition
    let yes ← lowerStmts s.opened body
    let no ← lowerArms s.opened arms fun s ↦
      if otherwise.isEmpty then pure none else some <$> lowerStmts s otherwise
    return condition ++ [conditional yes no]
  | .while condition body _ => do
    let condition ← w.lowerCondition condition
    let body ← lowerStmts s.opened.opened body
    return [whileLoop condition body]
  | .for name start last step body _ => do
    let slot ← w.tables.slot name
    let stop ← addLocal .i32
    let by_ ← addLocal .i32
    let (before, condition) ← w.lowerBounds slot stop by_ start last step
    let body ← lowerStmts s.opened.opened body
    let next := [.globalGet slot, .localGet by_, ← w.callOperator .add, .globalSet slot]
    return before ++ [whileLoop condition (body ++ next)]
  | .goto name _ => do
    let segment ← w.tables.label s.routine name
    let (selector, depth) ← s.jump
    return [.i32Const (UInt32.ofNat segment), .localSet selector, .br depth]
  | .callSub name _ => do
    let index ← w.tables.subroutine name
    return [.call (w.tables.function (.subroutine index))]
  | .label _ _ => return []
  | .sub _ _ _ => return []
  | .empty _ => return []

def lowerStmts (s : Scope) : List Stmt → Lowering (List Instr)
  | [] => return []
  | st :: rest => do
    let first ← lowerStmt s st
    return first ++ (← lowerStmts s rest)

/-- The alternative of a conditional: its further arms, and `otherwise` behind them. -/
def lowerArms (s : Scope) : List Arm → (Scope → Lowering (Option (List Instr))) →
    Lowering (Option (List Instr))
  | [], otherwise => otherwise s
  | .mk condition body :: rest, otherwise => do
    let condition ← w.lowerCondition condition
    let yes ← lowerStmts s.opened body
    let no ← lowerArms s.opened rest otherwise
    return some (condition ++ [conditional yes no])

end

end Setting

/-! ## Routines -/

/-- The statements of a routine, cut at its labels. -/
def segments : List Stmt → List (List Stmt)
  | [] => [[]]
  | .label _ _ :: rest => [] :: segments rest
  | s :: rest =>
    match segments rest with
    | [] => [[s]]
    | first :: others => (s :: first) :: others

/-- Segments one after the other, each behind the end of a block. A branch out of block `k` of the
innermost ones runs segment `k` and those behind it. -/
def nestSegments (inner : List Instr) : List (List Instr) → List Instr
  | [] => inner
  | segment :: rest => nestSegments (.block .empty inner :: segment) rest

namespace Setting

variable (w : Setting)

/-- The code of segments. A segment stands in one more block for each segment behind it. -/
def lowerSegments (s : Scope) : List (List Stmt) → Lowering (List (List Instr))
  | [] => return []
  | segment :: rest => do
    let first ← w.lowerStmts { s with depth := s.depth + rest.length } segment
    return first :: (← lowerSegments s rest)

/-- The code of a routine. -/
def lowerRoutine (routine : Routine) (body : List Stmt) : Lowering (List Instr) := do
  match segments body with
  | [_] => w.lowerStmts (.top routine) body
  | parts =>
    let selector ← addLocal .i32
    let code ← w.lowerSegments ((Scope.top routine).opened.dispatching selector) parts
    let last := parts.length - 1
    let choose := [.localGet selector, .brTable (List.range parts.length) last]
    return [.loop .empty (nestSegments choose code)]

/-- The function of a routine. -/
def routineCode (routine : Routine) (body : List Stmt) : Except EmitError Code := do
  let (body, locals) ← (w.lowerRoutine routine body).run []
  return ⟨locals.map fun t ↦ (1, t), body⟩

end Setting

end ScriptWasm
