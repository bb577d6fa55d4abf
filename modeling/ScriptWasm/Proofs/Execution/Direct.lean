import ScriptWasm.Emission.Tables
import ScriptWasm.Emission.Lower
import ScriptWasm.Proofs.Analysis.Verdict
import ScriptWasm.Proofs.Execution.Machine

/-!
# Running programs directly

What a program means, without any code: statements are executed as they are written. Values are
words that only the embedder can make sense of, so every operation on them is a call to it.

An expression always has a value. A statement may run on forever, so statements take an amount of
fuel. A statement ends in front of the next one, or with a jump that leaves every block around it;
the routine goes on behind the label. Names that a checked program cannot hold have no meaning worth
mentioning: they read as zero, and nothing is done for them.
-/

namespace ScriptWasm

open Wasm

/-- What outlives statements: the contents of a number of slots, the state of the embedder, and the
calls that it has had. -/
structure Store (σ : Type) (n : Nat) where
  slots : List UInt32
  size : slots.length = n
  host : σ
  calls : List HostCall

/-- What the names in a program stand for. Texts lie somewhere in memory. -/
structure Meaning (σ : Type) where
  host : Host
  embedder : Embedder σ
  symbols : List String
  subroutines : List (String × List Stmt)
  place : String → Extent

/-- How a statement ends. -/
inductive Flow where
  | next
  | jump (label : String)
deriving DecidableEq, Repr

/-- The statements behind a label of a routine. -/
def behind (name : String) : List Stmt → Option (List Stmt)
  | [] => none
  | s :: rest => if s.labelName? = some name then some rest else behind name rest

variable {σ : Type}

/-- What a store looks like to code. -/
def Store.world {n : Nat} (s : Store σ n) : World σ := ⟨s.slots.map .i32, s.host, s.calls⟩

namespace Meaning

variable (m : Meaning σ)

/-! ## Names -/

abbrev State : Type := Store σ m.symbols.length

def slot (name : String) : Nat := (Tables.lastIndex? name m.symbols).getD 0

def read (name : String) (s : m.State) : UInt32 := s.slots.getD (m.slot name) 0

def write (name : String) (v : UInt32) (s : m.State) : m.State :=
  { s with slots := s.slots.set (m.slot name) v, size := by rw [List.length_set, s.size] }

/-- The position of a subroutine among all. -/
def position (name : String) : Nat := ((m.subroutines.map Prod.fst).idxOf? name).getD 0

def body? (name : String) : Option (List Stmt) :=
  (m.subroutines.find? (·.1 = name)).map Prod.snd

/-! ## Calls -/

def invoke (source : ImportRef) (args : List Value) (s : m.State) : List Value × m.State :=
  let (results, host) := m.embedder.call source args s.host
  (results, { s with host := host, calls := s.calls ++ [⟨source, args⟩] })

/-- The word that a function gives. -/
def ask (source : ImportRef) (args : List Value) (s : m.State) : UInt32 × m.State :=
  match m.invoke source args s with
  | ([.i32 w], s) => (w, s)
  | (_, s) => (0, s)

/-- The value of an operation. -/
def operate (op : Operator) (args : List Value) (s : m.State) : UInt32 × m.State :=
  m.ask (m.host.operators.handle op).source args s

def number (x : Binary64) (s : m.State) : UInt32 × m.State := m.operate .ofNumber [.f64 x] s

/-- Whether a value holds as a condition. -/
def truth (v : UInt32) (s : m.State) : Bool × m.State :=
  let (w, s) := m.operate .toBoolean [.i32 v] s
  (w ≠ 0, s)

/-! ## Expressions -/

mutual

/-- The value of an expression; operands are evaluated from left to right. -/
def eval : Expr → m.State → UInt32 × m.State
  | .number x, s => m.number x s
  | .text text, s =>
    let e := m.place text
    m.operate .ofText [.i32 (UInt32.ofNat e.start), .i32 (UInt32.ofNat e.length)] s
  | .variable name, s => (m.read name s, s)
  | .index array indices, s => follow indices (m.read array s) s
  | .property type name, s =>
    match (m.host.registry.property? type name).bind (·.getter?) with
    | some source => m.ask source [] s
    | none => (0, s)
  | .call type method args, s =>
    let (values, s) := evalAll args s
    match m.host.registry.method? type method with
    | some d => m.ask d.source (values.map .i32) s
    | none => (0, s)
  | .binary op left right, s =>
    let (a, s) := eval left s
    let (b, s) := eval right s
    m.operate op.operator [.i32 a, .i32 b] s
  | .negate operand, s =>
    let (a, s) := eval operand s
    m.operate .negate [.i32 a] s

def evalAll : List Expr → m.State → List UInt32 × m.State
  | [], s => ([], s)
  | e :: rest, s =>
    let (v, s) := eval e s
    let (vs, s) := evalAll rest s
    (v :: vs, s)

/-- Follows indices from an array to an element. -/
def follow : List Expr → UInt32 → m.State → UInt32 × m.State
  | [], v, s => (v, s)
  | e :: rest, v, s =>
    let (i, s) := eval e s
    let (v, s) := m.operate .getElement [.i32 v, .i32 i] s
    follow rest v s

end

/-- Whether a condition holds. -/
def test (e : Expr) (s : m.State) : Bool × m.State :=
  let (v, s) := m.eval e s
  m.truth v s

/-! ## Assignments -/

/-- An array with the value of an expression stored at indices. -/
def update (value : Expr) : List Expr → UInt32 → m.State → UInt32 × m.State
  | [], array, s => (array, s)
  | [last], array, s =>
    let (i, s) := m.eval last s
    let (v, s) := m.eval value s
    m.operate .setElement [.i32 array, .i32 i, .i32 v] s
  | first :: rest, array, s =>
    let (i, s) := m.eval first s
    let (inner, s) := m.operate .getElement [.i32 array, .i32 i] s
    let (inner, s) := update value rest inner s
    m.operate .setElement [.i32 array, .i32 i, .i32 inner] s

/-- An event is given the position of the subroutine that handles it. -/
def assign (value : Expr) : Target → m.State → m.State
  | .variable name, s =>
    let (v, s) := m.eval value s
    m.write name v s
  | .index array indices, s =>
    let (v, s) := m.update value indices (m.read array s) s
    m.write array v s
  | .property type name, s =>
    let (v, s) := m.eval value s
    match (m.host.registry.property? type name).bind (·.setter?) with
    | some source => (m.invoke source [.i32 v] s).2
    | none => s
  | .event type name, s =>
    match value, m.host.registry.event? type name with
    | .variable handler, some e =>
      (m.invoke e.subscribe [.i32 (UInt32.ofNat (m.position handler))] s).2
    | _, _ => s

/-- A method that is called for its effect. -/
def perform (type method : String) (args : List Expr) (s : m.State) : m.State :=
  let (values, s) := m.evalAll args s
  match m.host.registry.method? type method with
  | some d => (m.invoke d.source (values.map .i32) s).2
  | none => s

/-! ## Counting loops -/

/-- What a counting loop goes by, once it has been entered. -/
structure Counting where
  stop : UInt32
  step : UInt32
  down : Bool

/-- Whether a step is below zero. -/
def descends (step : UInt32) (s : m.State) : Bool × m.State :=
  let (zero, s) := m.number .zero s
  let (below, s) := m.operate .lessThan [.i32 step, .i32 zero] s
  m.truth below s

/-- The start is assigned, then end and step are evaluated, once each. A loop without a step counts
up by one; one with a step counts down if the step is below zero. -/
def enter (name : String) (start stop : Expr) : Option Expr → m.State → Counting × m.State
  | none, s =>
    let (v, s) := m.eval start s
    let (stop, s) := m.eval stop (m.write name v s)
    let (step, s) := m.number Setting.one s
    (⟨stop, step, false⟩, s)
  | some step, s =>
    let (v, s) := m.eval start s
    let (stop, s) := m.eval stop (m.write name v s)
    let (step, s) := m.eval step s
    let (down, s) := m.descends step s
    (⟨stop, step, down⟩, s)

/-- Whether there is another pass. -/
def goesOn (name : String) (k : Counting) (s : m.State) : Bool × m.State :=
  let (v, s) := m.operate (if k.down then .greaterThanOrEqual else .lessThanOrEqual)
    [.i32 (m.read name s), .i32 k.stop] s
  m.truth v s

/-- What is done after a pass. -/
def advance (name : String) (k : Counting) (s : m.State) : m.State :=
  let (v, s) := m.operate .add [.i32 (m.read name s), .i32 k.step] s
  m.write name v s

/-! ## Statements -/

mutual

def runStmt : (fuel : Nat) → Stmt → m.State → Option (Flow × m.State)
  | 0, _, _ => none
  | _ + 1, .assign target value _, s => some (.next, m.assign value target s)
  | _ + 1, .call type method args _, s => some (.next, m.perform type method args s)
  | n + 1, .cond condition body arms otherwise _, s =>
    runArms n (.mk condition body :: arms) otherwise s
  | n + 1, .while condition body _, s => runLoop n (m.test condition) body id s
  | n + 1, .for name start stop step body _, s =>
    let (k, s) := m.enter name start stop step s
    runLoop n (m.goesOn name k) body (m.advance name k) s
  | _ + 1, .goto name _, s => some (.jump name, s)
  | n + 1, .callSub name _, s => do
    let body ← m.body? name
    return (.next, ← runRoutine n body body s)
  | _ + 1, .label _ _, s => some (.next, s)
  | _ + 1, .sub _ _ _, s => some (.next, s)
  | _ + 1, .empty _, s => some (.next, s)

def runStmts : (fuel : Nat) → List Stmt → m.State → Option (Flow × m.State)
  | 0, _, _ => none
  | _ + 1, [], s => some (.next, s)
  | n + 1, st :: rest, s => do
    match ← runStmt n st s with
    | (.next, s) => runStmts n rest s
    | (.jump name, s) => return (.jump name, s)

/-- The first arm whose condition holds is run. -/
def runArms : (fuel : Nat) → List Arm → List Stmt → m.State → Option (Flow × m.State)
  | 0, _, _, _ => none
  | n + 1, [], otherwise, s => runStmts n otherwise s
  | n + 1, .mk condition body :: arms, otherwise, s =>
    match m.test condition s with
    | (true, s) => runStmts n body s
    | (false, s) => runArms n arms otherwise s

/-- The passes of a loop: before each of them it is asked whether there is another one. -/
def runLoop : (fuel : Nat) → (again : m.State → Bool × m.State) → List Stmt →
    (next : m.State → m.State) → m.State → Option (Flow × m.State)
  | 0, _, _, _, _ => none
  | n + 1, again, body, next, s =>
    match again s with
    | (true, s) => do
      match ← runStmts n body s with
      | (.next, s) => runLoop n again body next (next s)
      | (.jump label, s) => return (.jump label, s)
    | (false, s) => some (.next, s)

/-- Runs what is left of a routine. A jump goes on behind its label. -/
def runRoutine : (fuel : Nat) → (routine rest : List Stmt) → m.State → Option m.State
  | 0, _, _, _ => none
  | n + 1, routine, rest, s => do
    match ← runStmts n rest s with
    | (.next, s) => return s
    | (.jump name, s) => runRoutine n routine (← behind name routine) s

end

end Meaning

/-- What a program means: `place` says where its texts lie. -/
def Program.meaning (p : Program) (h : Host) (e : Embedder σ) (place : String → Extent) :
    Meaning σ := ⟨h, e, p.symbols.names, topSubroutines p.body, place⟩

end ScriptWasm
