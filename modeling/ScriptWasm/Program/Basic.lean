import ScriptWasm.Number.Binary64
import ScriptWasm.Source.Span

/-!
# Programs

A program is a tree of statements together with the names of its variables. The tree is ordered as
it was written. Every statement carries the span it came from; expressions have none of their own.
-/

namespace ScriptWasm

inductive BinaryOp where
  | add
  | subtract
  | multiply
  | divide
  | greaterThan
  | greaterThanOrEqual
  | lessThan
  | lessThanOrEqual
  | equal
  | notEqual
  | and
  | or
deriving DecidableEq, Repr

inductive Expr where
  | number (value : Binary64)
  | text (value : String)
  | variable (name : String)
  /-- `array[i][j]…`; without an index, the array itself. -/
  | index (array : String) (indices : List Expr)
  | property (type property : String)
  | call (type method : String) (args : List Expr)
  | binary (op : BinaryOp) (left right : Expr)
  | negate (operand : Expr)
deriving Repr, Inhabited

/-- The left-hand side of an assignment. -/
inductive Target where
  | variable (name : String)
  /-- `array[i][j]…` -/
  | index (array : String) (indices : List Expr)
  | property (type property : String)
  /-- The handler of an event; the value names a subroutine. -/
  | event (type event : String)
deriving Repr, Inhabited

mutual

inductive Stmt where
  | assign (target : Target) (value : Expr) (span : Span)
  /-- A method call whose result, if any, is dropped. -/
  | call (type method : String) (args : List Expr) (span : Span)
  | cond (condition : Expr) (body : List Stmt) (arms : List Arm) (otherwise : List Stmt)
      (span : Span)
  | while (condition : Expr) (body : List Stmt) (span : Span)
  /-- Counts `name` from `start` to `stop`, by one if there is no step. -/
  | for (name : String) (start stop : Expr) (step : Option Expr) (body : List Stmt) (span : Span)
  | goto (label : String) (span : Span)
  | label (name : String) (span : Span)
  | sub (name : String) (body : List Stmt) (span : Span)
  | callSub (name : String) (span : Span)
  | empty (span : Span)

/-- A further arm of a conditional. -/
inductive Arm where
  | mk (condition : Expr) (body : List Stmt)

end

instance : Inhabited Stmt := ⟨.empty .unknown⟩

instance : Inhabited Arm := ⟨.mk default []⟩

namespace Arm

def condition : Arm → Expr
  | .mk c _ => c

def body : Arm → List Stmt
  | .mk _ b => b

end Arm

namespace Stmt

def span : Stmt → Span
  | .assign _ _ s => s
  | .call _ _ _ s => s
  | .cond _ _ _ _ s => s
  | .while _ _ s => s
  | .for _ _ _ _ _ s => s
  | .goto _ s => s
  | .label _ s => s
  | .sub _ _ s => s
  | .callSub _ s => s
  | .empty s => s

end Stmt

/-! ## Symbol tables -/

/-- The variables of a program, in the order in which they get their storage. -/
structure SymbolTable where
  names : List String
deriving DecidableEq, Repr, Inhabited

namespace SymbolTable

def empty : SymbolTable := ⟨[]⟩

def contains (t : SymbolTable) (name : String) : Bool := t.names.contains name

/-- Adds a name behind the others, unless it is there already. -/
def declare (t : SymbolTable) (name : String) : SymbolTable :=
  if t.contains name then t else ⟨t.names ++ [name]⟩

/-- Where a name was first declared. -/
def position? (t : SymbolTable) (name : String) : Option Nat := t.names.idxOf? name

/-- Declares names one after the other. -/
def ofNames (names : List String) : SymbolTable := names.foldl declare empty

mutual

/-- Declares the variables that a statement assigns, those of nested bodies included. -/
def collectStmt (t : SymbolTable) : Stmt → SymbolTable
  | .assign (.variable name) _ _ => t.declare name
  | .assign (.index array _) _ _ => t.declare array
  | .assign (.property ..) _ _ => t
  | .assign (.event ..) _ _ => t
  | .cond _ body arms otherwise _ => ((t.collectBody body).collectArms arms).collectBody otherwise
  | .while _ body _ => t.collectBody body
  | .for name _ _ _ body _ => (t.declare name).collectBody body
  | .sub _ body _ => t.collectBody body
  | .call .. => t
  | .goto .. => t
  | .label .. => t
  | .callSub .. => t
  | .empty .. => t

def collectBody (t : SymbolTable) : List Stmt → SymbolTable
  | [] => t
  | s :: rest => (t.collectStmt s).collectBody rest

def collectArms (t : SymbolTable) : List Arm → SymbolTable
  | [] => t
  | .mk _ body :: rest => (t.collectBody body).collectArms rest

end

/-- The variables that a body assigns, in order of first occurrence. -/
def collect (body : List Stmt) : SymbolTable := empty.collectBody body

end SymbolTable

structure Program where
  symbols : SymbolTable
  body : List Stmt
deriving Inhabited

/-- The program whose variables are the ones its body assigns. -/
def Program.ofBody (body : List Stmt) : Program := ⟨.collect body, body⟩

end ScriptWasm
