import ScriptWasm.Analysis.RoutineEnv
import ScriptWasm.Diagnostic.Basic
import ScriptWasm.Library.Registry
import ScriptWasm.Program.Basic

/-!
# Checking programs

A program is checked against the registry of library members. Everything that could not be emitted
is reported, in the order in which it is met: first the subroutines that are declared more than
once, then the labels of the program, then its statements one after the other. Subroutines may be
used before they are declared, and so may labels, so both are collected in advance.

What is wrong with an expression depends on the names in it alone. What is wrong with a statement
depends also on where it stands, and is reported at its span.
-/

namespace ScriptWasm

/-- Something that is wrong, and the span it is reported at. -/
structure Finding where
  complaint : Complaint
  span : Span
deriving DecidableEq, Repr

/-- What names are looked up in. -/
structure Names where
  registry : Registry
  symbols : SymbolTable
  subroutines : List String

namespace Names

variable (n : Names)

/-! ## Names -/

def checkVariable (name : String) : List Complaint :=
  if n.symbols.contains name then [] else [.undeclaredVariable name]

/-- What is wrong with a member of a type: the type is unknown, or has no such member, or `check`
has something to say about it. -/
def checkMember {α : Type} (kind : MemberKind) (type name : String) (member : Option α)
    (check : α → List Complaint) : List Complaint :=
  if (n.registry.get? type).isNone then [.unknownType type]
  else
    match member with
    | none => [.unknownMember type kind name]
    | some a => check a

/-- A method that is called with a number of arguments, for its value or not. -/
def checkCall (type method : String) (given : Nat) (needsValue : Bool) : List Complaint :=
  n.checkMember .method type method (n.registry.method? type method) fun m ↦
    (if m.paramCount = given then [] else [.wrongArgumentCount type method m.paramCount given]) ++
      if needsValue && !m.returnsValue then [.noReturnValue type method] else []

def checkGetter (type name : String) : List Complaint :=
  n.checkMember .property type name (n.registry.property? type name) fun p ↦
    if p.getter?.isNone then [.notReadable type name] else []

def checkSetter (type name : String) : List Complaint :=
  n.checkMember .property type name (n.registry.property? type name) fun p ↦
    if p.setter?.isNone then [.notWritable type name] else []

def checkEvent (type name : String) : List Complaint :=
  n.checkMember .event type name (n.registry.event? type name) fun _ ↦ []

/-- The handler of an event is the name of a subroutine. -/
def checkHandler (type event : String) : Expr → List Complaint
  | .variable name =>
    if n.subroutines.contains name then [] else [.handlerNotSubroutine type event name]
  | _ => [.handlerNotName type event]

/-! ## Expressions -/

mutual

def checkExpr : Expr → List Complaint
  | .number _ => []
  | .text _ => []
  | .variable name => n.checkVariable name
  | .index array indices => n.checkVariable array ++ checkExprs indices
  | .property type name => n.checkGetter type name
  | .call type method args => n.checkCall type method args.length true ++ checkExprs args
  | .binary _ left right => checkExpr left ++ checkExpr right
  | .negate operand => checkExpr operand

def checkExprs : List Expr → List Complaint
  | [] => []
  | e :: rest => checkExpr e ++ checkExprs rest

end

def checkAssign (value : Expr) : Target → List Complaint
  | .variable name => n.checkVariable name ++ n.checkExpr value
  | .index array indices =>
    n.checkVariable array ++ (if indices.isEmpty then [.missingIndex array] else []) ++
      n.checkExprs indices ++ n.checkExpr value
  | .property type name => n.checkSetter type name ++ n.checkExpr value
  | .event type name => n.checkEvent type name ++ n.checkHandler type name value

end Names

/-! ## Declarations -/

/-- Places complaints at a span. -/
def atSpan (span : Span) (complaints : List Complaint) : List Finding :=
  complaints.map fun c ↦ ⟨c, span⟩

/-- Defines the labels of a routine; labels in blocks are not among them. -/
def declareLabels (env : RoutineEnv) : List Stmt → RoutineEnv × List Finding
  | [] => (env, [])
  | .label name span :: rest =>
    let found := if env.hasLabel name then atSpan span [.duplicateLabel name] else []
    let (env, more) := declareLabels (env.defineLabel name) rest
    (env, found ++ more)
  | _ :: rest => declareLabels env rest

mutual

/-- Collects the subroutines that a statement declares, wherever they stand. -/
def declareSubroutine (names : List String) : Stmt → List String × List Finding
  | .sub name body span =>
    let found := if names.contains name then atSpan span [.duplicateSubroutine name] else []
    let (names, more) :=
      declareSubroutines (if names.contains name then names else names ++ [name]) body
    (names, found ++ more)
  | .cond _ body arms otherwise _ =>
    let (names, a) := declareSubroutines names body
    let (names, b) := declareArmSubroutines names arms
    let (names, c) := declareSubroutines names otherwise
    (names, a ++ b ++ c)
  | .while _ body _ => declareSubroutines names body
  | .for _ _ _ _ body _ => declareSubroutines names body
  | .assign .. => (names, [])
  | .call .. => (names, [])
  | .goto .. => (names, [])
  | .label .. => (names, [])
  | .callSub .. => (names, [])
  | .empty .. => (names, [])

def declareSubroutines (names : List String) : List Stmt → List String × List Finding
  | [] => (names, [])
  | s :: rest =>
    let (names, a) := declareSubroutine names s
    let (names, b) := declareSubroutines names rest
    (names, a ++ b)

def declareArmSubroutines (names : List String) : List Arm → List String × List Finding
  | [] => (names, [])
  | .mk _ body :: rest =>
    let (names, a) := declareSubroutines names body
    let (names, b) := declareArmSubroutines names rest
    (names, a ++ b)

end

/-! ## Statements -/

namespace Names

variable (n : Names)

mutual

/-- The findings in a statement, and the environment behind it. -/
def checkStmt (env : RoutineEnv) : Stmt → RoutineEnv × List Finding
  | .assign target value span => (env, atSpan span (n.checkAssign value target))
  | .call type method args span =>
    (env, atSpan span (n.checkCall type method args.length false ++ n.checkExprs args))
  | .cond condition body arms otherwise span =>
    let (env, a) := checkStmts (env.push .block) body
    let (env, b) := checkArms env.pop span arms
    let (env, c) := checkStmts (env.push .block) otherwise
    (env.pop, atSpan span (n.checkExpr condition) ++ a ++ b ++ c)
  | .while condition body span =>
    let (env, a) := checkStmts (env.push .block) body
    (env.pop, atSpan span (n.checkExpr condition) ++ a)
  | .for name start last step body span =>
    let head := n.checkVariable name ++ n.checkExpr start ++ n.checkExpr last ++
      n.checkExprs step.toList
    let (env, a) := checkStmts (env.push .block) body
    (env.pop, atSpan span head ++ a)
  | .goto name span => (env, if env.hasLabel name then [] else atSpan span [.undefinedLabel name])
  | .label name span => (env, if env.inBlock then atSpan span [.labelInBlock name] else [])
  | .sub name body span =>
    if env.current = .entry then
      let (env, a) := declareLabels (env.push .subroutine) body
      let (env, b) := checkStmts env body
      (env.pop, a ++ b)
    else (env, atSpan span [.nestedSubroutine name])
  | .callSub name span =>
    (env, if n.subroutines.contains name then [] else atSpan span [.undefinedSubroutine name])
  | .empty _ => (env, [])

def checkStmts (env : RoutineEnv) : List Stmt → RoutineEnv × List Finding
  | [] => (env, [])
  | s :: rest =>
    let (env, a) := checkStmt env s
    let (env, b) := checkStmts env rest
    (env, a ++ b)

/-- The conditions of further arms are reported at the span of the whole conditional. -/
def checkArms (env : RoutineEnv) (span : Span) : List Arm → RoutineEnv × List Finding
  | [] => (env, [])
  | .mk condition body :: rest =>
    let (env, a) := checkStmts (env.push .block) body
    let (env, b) := checkArms env.pop span rest
    (env, atSpan span (n.checkExpr condition) ++ a ++ b)

end

end Names

/-! ## Programs -/

namespace Program

/-- Everything that is wrong with a program. -/
def check (r : Registry) (p : Program) : List Finding :=
  let (subroutines, a) := declareSubroutines [] p.body
  let (env, b) := declareLabels .start p.body
  let (_, c) := Names.checkStmts ⟨r, p.symbols, subroutines⟩ env p.body
  a ++ b ++ c

/-- What is wrong with a program, as it is shown. -/
def analyze (r : Registry) (source : SourceText) (p : Program) : List Diagnostic :=
  (p.check r).map fun f ↦ .of source f.complaint f.span

end Program

end ScriptWasm
