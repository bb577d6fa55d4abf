import ScriptWasm.Json.Reader
import ScriptWasm.Program.Basic

/-!
# The JSON form of programs

Three ways of tagging meet in one tree. Expressions and targets are objects with the kind as their
only key. Statements carry their kind as the member `stmt` beside their parts and their span, so a
statement is buffered before its parts are decoded, and only its own span is read directly. The
symbol table is a plain list of names.

Reading recurses on the number of levels that a text may nest; writing recurses on the tree.
-/

namespace ScriptWasm

open Json

/-! ## Expressions -/

namespace BinaryOp

def word : BinaryOp → String
  | .add => "add"
  | .subtract => "subtract"
  | .multiply => "multiply"
  | .divide => "divide"
  | .greaterThan => "greater_than"
  | .greaterThanOrEqual => "greater_than_or_equal"
  | .lessThan => "less_than"
  | .lessThanOrEqual => "less_than_or_equal"
  | .equal => "equal"
  | .notEqual => "not_equal"
  | .and => "and"
  | .or => "or"

def all : List BinaryOp :=
  [.add, .subtract, .multiply, .divide, .greaterThan, .greaterThanOrEqual, .lessThan,
    .lessThanOrEqual, .equal, .notEqual, .and, .or]

def form {R : Type → Type} [Source R] : R BinaryOp := Source.choice (all.map fun op ↦ (op.word, op))

end BinaryOp

section Parts

variable {R : Type → Type} [Source R]

/-- An array name and indices. -/
def elementFields (label : String) (expr : R Expr) : R (String × List Expr) :=
  Source.fields label ("", [])
    [.needed "array" Source.text fun a s ↦ (a, s.2),
      .needed "indices" (Source.list expr) fun is s ↦ (s.1, is)]

/-- A library type and one of its members. -/
def memberFields (label member : String) : R (String × String) :=
  Source.fields label ("", "")
    [.needed "type" Source.text fun t s ↦ (t, s.2), .needed member Source.text fun m s ↦ (s.1, m)]

/-- The parts of a method call. -/
def callMembers (expr : R Expr) : List (Member R (String × String × List Expr)) :=
  [.needed "type" Source.text fun t s ↦ (t, s.2),
    .needed "method" Source.text fun m s ↦ (s.1, m, s.2.2),
    .defaulted "args" (Source.list expr) fun args s ↦ (s.1, s.2.1, args)]

/-- The parts of a binary operation. -/
def binaryMembers (expr : R Expr) : List (Member R (BinaryOp × Expr × Expr)) :=
  [.needed "op" BinaryOp.form fun op s ↦ (op, s.2),
    .needed "left" expr fun l s ↦ (s.1, l, s.2.2),
    .needed "right" expr fun r s ↦ (s.1, s.2.1, r)]

end Parts

namespace Expr

/-- Expressions that nest no deeper than `steps`. -/
def formWithin {R : Type → Type} [Source R] : Nat → R Expr
  | 0 => Source.fail .nestedTooDeep
  | steps + 1 =>
    let inner : R Expr := formWithin steps
    Source.variant
      [("number", .single (Source.map .number Source.double)),
        ("text", .single (Source.map .text Source.text)),
        ("variable", .single (Source.map .variable Source.text)),
        ("index", .fields (Source.map (fun (a, is) ↦ .index a is)
          (elementFields "struct variant Expr::Index" inner))),
        ("property", .fields (Source.map (fun (t, p) ↦ .property t p)
          (memberFields "struct variant Expr::Property" "property"))),
        ("call", .fields (Source.map (fun (t, m, args) ↦ .call t m args)
          (Source.fields "struct variant Expr::Call" ("", "", []) (callMembers inner)))),
        ("binary", .fields (Source.map (fun (op, l, r) ↦ .binary op l r)
          (Source.fields "struct variant Expr::Binary" (.add, default, default)
            (binaryMembers inner)))),
        ("negate", .single (Source.map .negate inner))]

def form {R : Type → Type} [Source R] : R Expr := formWithin maxLevels

mutual

def toValue : Expr → Value
  | .number x => .object [("number", .float x)]
  | .text s => .object [("text", .string s)]
  | .variable name => .object [("variable", .string name)]
  | .index array indices =>
    .object [("index", .object [("array", .string array), ("indices", .array (toValues indices))])]
  | .property type name =>
    .object [("property", .object [("type", .string type), ("property", .string name)])]
  | .call type method args =>
    .object [("call", .object [("type", .string type), ("method", .string method),
      ("args", .array (toValues args))])]
  | .binary op left right =>
    .object [("binary", .object [("op", .string op.word), ("left", left.toValue),
      ("right", right.toValue)])]
  | .negate operand => .object [("negate", operand.toValue)]

def toValues : List Expr → List Value
  | [] => []
  | e :: rest => e.toValue :: toValues rest

end

end Expr

/-! ## Targets -/

namespace Target

def form {R : Type → Type} [Source R] : R Target :=
  Source.variant
    [("variable", .single (Source.map .variable Source.text)),
      ("index", .fields (Source.map (fun (a, is) ↦ .index a is)
        (elementFields "struct variant Target::Index" Expr.form))),
      ("property", .fields (Source.map (fun (t, p) ↦ .property t p)
        (memberFields "struct variant Target::Property" "property"))),
      ("event", .fields (Source.map (fun (t, e) ↦ .event t e)
        (memberFields "struct variant Target::Event" "event")))]

def toValue : Target → Value
  | .variable name => .object [("variable", .string name)]
  | .index array indices =>
    .object [("index",
      .object [("array", .string array), ("indices", .array (Expr.toValues indices))])]
  | .property type name =>
    .object [("property", .object [("type", .string type), ("property", .string name)])]
  | .event type name =>
    .object [("event", .object [("type", .string type), ("event", .string name)])]

end Target

/-! ## Statements -/

namespace Stmt

/-- What the members of a statement are read into, apart from its kind and its span. -/
abbrev Parts := List (String × Value) → Except Problem (Span → Stmt)

/-- The parts of a conditional. -/
structure CondParts where
  condition : Expr
  body : List Stmt
  arms : List Arm
  otherwise : List Stmt

/-- The parts of a counting loop. -/
structure ForParts where
  name : String
  start : Expr
  stop : Expr
  step : Option Expr
  body : List Stmt

def armForm (stmt : Decoder Stmt) : Decoder Arm :=
  Source.map (fun (c, body) ↦ .mk c body) <|
    Source.record "struct ElseIf" (default, [])
      [.needed "condition" Expr.form fun c s ↦ (c, s.2),
        .needed "body" (Source.list stmt) fun b s ↦ (s.1, b)]

/-- A single member that holds a text. -/
def nameParts (member : String) (make : String → Span → Stmt) : Parts := fun entries ↦
  make <$> Decoder.ofObject "" [.needed member Source.text fun s _ ↦ s] entries

def assignParts : Parts := fun entries ↦
  (fun (t, v) ↦ .assign t v) <$> Decoder.ofObject (default, default)
    [.needed "target" Target.form fun t s ↦ (t, s.2), .needed "value" Expr.form fun v s ↦ (s.1, v)]
    entries

def callParts : Parts := fun entries ↦
  (fun (t, m, args) ↦ .call t m args) <$> Decoder.ofObject ("", "", []) (callMembers Expr.form)
    entries

def condParts (stmt : Decoder Stmt) : Parts := fun entries ↦
  (fun p ↦ .cond p.condition p.body p.arms p.otherwise) <$>
    Decoder.ofObject (⟨default, [], [], []⟩ : CondParts)
      [.needed "condition" Expr.form fun c p ↦ { p with condition := c },
        .needed "then" (Source.list stmt) fun b p ↦ { p with body := b },
        .defaulted "else_if" (Source.list (armForm stmt)) fun a p ↦ { p with arms := a },
        .defaulted "else" (Source.list stmt) fun o p ↦ { p with otherwise := o }]
      entries

def whileParts (stmt : Decoder Stmt) : Parts := fun entries ↦
  (fun (c, b) ↦ .while c b) <$> Decoder.ofObject (default, [])
    [.needed "condition" Expr.form fun c s ↦ (c, s.2),
      .needed "body" (Source.list stmt) fun b s ↦ (s.1, b)]
    entries

def forParts (stmt : Decoder Stmt) : Parts := fun entries ↦
  (fun p ↦ .for p.name p.start p.stop p.step p.body) <$>
    Decoder.ofObject (⟨"", default, default, none, []⟩ : ForParts)
      [.needed "variable" Source.text fun n p ↦ { p with name := n },
        .needed "start" Expr.form fun e p ↦ { p with start := e },
        .needed "end" Expr.form fun e p ↦ { p with stop := e },
        .defaulted "step" (Source.optional Expr.form) fun e p ↦ { p with step := e },
        .needed "body" (Source.list stmt) fun b p ↦ { p with body := b }]
      entries

def subParts (stmt : Decoder Stmt) : Parts := fun entries ↦
  (fun (n, b) ↦ .sub n b) <$> Decoder.ofObject ("", [])
    [.needed "name" Source.text fun n s ↦ (n, s.2),
      .needed "body" (Source.list stmt) fun b s ↦ (s.1, b)]
    entries

/-- The kinds of statements, with what their members are read into. -/
def kinds (stmt : Decoder Stmt) : List (String × Parts) :=
  [("assign", assignParts),
    ("call", callParts),
    ("if", condParts stmt),
    ("while", whileParts stmt),
    ("for", forParts stmt),
    ("goto", nameParts "label" .goto),
    ("label", nameParts "name" .label),
    ("sub", subParts stmt),
    ("call_sub", nameParts "name" .callSub),
    ("empty", fun _ ↦ .ok .empty)]

/-- A kind, by its name or by its position in the list of kinds. -/
def kindForm (options : List (String × Parts)) : Decoder Parts
  | .string name =>
    match options.lookup name with
    | some parts => .ok parts
    | none => .error (.unknownVariant name (options.map (·.1)))
  | .number (.integer n) =>
    if n < 0 then .error (.invalidType (.integer n) "variant identifier")
    else
      match options[n.toNat]? with
      | some (_, parts) => .ok parts
      | none =>
        .error (.invalidValue (.integer n) ("variant index 0 <= i < " ++ toString options.length))
  | v => Decoder.mismatch v "variant identifier"

/-- Takes the kind out of the members of a statement; `others` are the members passed, in reverse.
-/
def takeKind (options : List (String × Parts)) (kind : Option Parts)
    (others : List (String × Value)) :
    List (String × Value) → Except Problem (Parts × List (String × Value))
  | [] =>
    match kind with
    | some parts => .ok (parts, others.reverse)
    | none => .error (.missingField "stmt")
  | (name, v) :: rest =>
    if name = "stmt" then
      if kind.isSome then .error (.duplicateField "stmt")
      else do
        let parts ← kindForm options v
        takeKind options (some parts) others rest
    else takeKind options kind ((name, v) :: others) rest

/-- The statement with the given span and members. -/
def ofMembers (stmt : Decoder Stmt) (span : Span) (entries : List (String × Value)) :
    Except Problem Stmt := do
  let (parts, others) ← takeKind (kinds stmt) none [] entries
  let make ← parts others
  return make span

/-- A statement from any source, its nested statements being buffered. -/
def formWith {R : Type → Type} [Source R] (stmt : Decoder Stmt) : R Stmt :=
  Source.gathered "struct Stmt" Span.unknown [.defaulted "span" Span.form fun s _ ↦ s]
    (ofMembers stmt)

/-- Buffered statements that nest no deeper than `steps`. -/
def decodeWithin : Nat → Decoder Stmt
  | 0 => fun _ ↦ .error .nestedTooDeep
  | steps + 1 => formWith (decodeWithin steps)

/-- A statement from any source. -/
def form {R : Type → Type} [Source R] : R Stmt := formWith (decodeWithin maxLevels)

/-- An unknown span is not written. -/
def spanEntries (span : Span) : List (String × Value) :=
  if span.isUnknown then [] else [("span", span.toValue)]

mutual

/-- The members of a statement, its kind first. -/
def entries : Stmt → List (String × Value)
  | .assign target value _ =>
    [("stmt", .string "assign"), ("target", target.toValue), ("value", value.toValue)]
  | .call type method args _ =>
    [("stmt", .string "call"), ("type", .string type), ("method", .string method),
      ("args", .array (Expr.toValues args))]
  | .cond condition body arms otherwise _ =>
    [("stmt", .string "if"), ("condition", condition.toValue), ("then", .array (toValues body)),
      ("else_if", .array (armValues arms)), ("else", .array (toValues otherwise))]
  | .while condition body _ =>
    [("stmt", .string "while"), ("condition", condition.toValue), ("body", .array (toValues body))]
  | .for name start stop step body _ =>
    [("stmt", .string "for"), ("variable", .string name), ("start", start.toValue),
      ("end", stop.toValue), ("step", (step.map Expr.toValue).getD .null),
      ("body", .array (toValues body))]
  | .goto name _ => [("stmt", .string "goto"), ("label", .string name)]
  | .label name _ => [("stmt", .string "label"), ("name", .string name)]
  | .sub name body _ =>
    [("stmt", .string "sub"), ("name", .string name), ("body", .array (toValues body))]
  | .callSub name _ => [("stmt", .string "call_sub"), ("name", .string name)]
  | .empty _ => [("stmt", .string "empty")]

def toValues : List Stmt → List Value
  | [] => []
  | s :: rest => .object (entries s ++ spanEntries s.span) :: toValues rest

def armValues : List Arm → List Value
  | [] => []
  | .mk condition body :: rest =>
    .object [("condition", condition.toValue), ("body", .array (toValues body))] :: armValues rest

end

def toValue (s : Stmt) : Value := .object (s.entries ++ spanEntries s.span)

end Stmt

/-! ## Programs -/

namespace Program

/-- A body and, if they are declared, the variables. -/
structure Declared where
  names? : Option (List String)
  body : List Stmt

/-- A program whose variables are declared. -/
def form {R : Type → Type} [Source R] : R Program :=
  Source.record "struct Program" ⟨.empty, []⟩
    [.needed "variables" (Source.list Source.text) fun names p ↦ { p with symbols := ⟨names⟩ },
      .needed "body" (Source.list Stmt.form) fun b p ↦ { p with body := b }]

/-- A program whose variables may be left to be collected. -/
def declaredForm {R : Type → Type} [Source R] : R Declared :=
  Source.record "struct ProgramJson" ⟨none, []⟩
    [.defaulted "variables" (Source.optional (Source.list Source.text))
        fun names p ↦ { p with names? := names },
      .needed "body" (Source.list Stmt.form) fun b p ↦ { p with body := b }]

/-- A program that is only a list of statements. -/
def bodyForm {R : Type → Type} [Source R] : R (List Stmt) := Source.list Stmt.form

def toValue (p : Program) : Value :=
  .object [("variables", .strings p.symbols.names), ("body", .array (Stmt.toValues p.body))]

end Program

end ScriptWasm
