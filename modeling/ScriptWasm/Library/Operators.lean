import ScriptWasm.Library.Scan

/-!
# Operations on values

Programs compute with values of one type. The operations on it are methods of a type in the runtime
support library: each operation names the method, the parameters and the result that it needs, and
is bound to the first public static method of exactly that shape. Overloads of other shapes do not
matter. Either every operation is bound, or the first that is not is reported.
-/

namespace ScriptWasm

open Json

/-- The operations on values, in the order in which they are bound and imported. -/
inductive Operator where
  | ofText
  | ofNumber
  | toBoolean
  | negate
  | add
  | subtract
  | multiply
  | divide
  | greaterThan
  | greaterThanOrEqual
  | lessThan
  | lessThanOrEqual
  | equal
  | notEqual
  | and
  | or
  | getElement
  | setElement
deriving DecidableEq, Repr

namespace Operator

def all : List Operator :=
  [.ofText, .ofNumber, .toBoolean, .negate, .add, .subtract, .multiply, .divide, .greaterThan,
    .greaterThanOrEqual, .lessThan, .lessThanOrEqual, .equal, .notEqual, .and, .or, .getElement,
    .setElement]

/-- The position of an operation in the list of all. -/
def index (op : Operator) : Nat := all.idxOf op

/-- The name of the method behind an operation. -/
def methodName : Operator → String
  | .ofText => "op_Implicit"
  | .ofNumber => "op_Implicit"
  | .toBoolean => "ConvertToBoolean"
  | .negate => "op_UnaryNegation"
  | .add => "op_Addition"
  | .subtract => "op_Subtraction"
  | .multiply => "op_Multiply"
  | .divide => "op_Division"
  | .greaterThan => "op_GreaterThan"
  | .greaterThanOrEqual => "op_GreaterThanOrEqual"
  | .lessThan => "op_LessThan"
  | .lessThanOrEqual => "op_LessThanOrEqual"
  | .equal => "op_Equality"
  | .notEqual => "op_Inequality"
  | .and => "op_And"
  | .or => "op_Or"
  | .getElement => "GetArrayValue"
  | .setElement => "SetArrayValue"

def params : Operator → List TypeRef
  | .ofText => [.text]
  | .ofNumber => [.number]
  | .toBoolean => [.primitive]
  | .negate => [.primitive]
  | .setElement => [.primitive, .primitive, .primitive]
  | _ => [.primitive, .primitive]

def returns : Operator → TypeRef
  | .toBoolean => .boolean
  | _ => .primitive

/-- The import field of an operation in a support library that follows the usual names. -/
def usualField : Operator → String
  | .ofText => "from_text"
  | .ofNumber => "from_number"
  | .toBoolean => "to_boolean"
  | .negate => "negate"
  | .add => "add"
  | .subtract => "subtract"
  | .multiply => "multiply"
  | .divide => "divide"
  | .greaterThan => "greater_than"
  | .greaterThanOrEqual => "greater_than_or_equal"
  | .lessThan => "less_than"
  | .lessThanOrEqual => "less_than_or_equal"
  | .equal => "equal"
  | .notEqual => "not_equal"
  | .and => "and"
  | .or => "or"
  | .getElement => "get_array_value"
  | .setElement => "set_array_value"

/-- The name of an operation in a listing of the bindings. -/
def word : Operator → String
  | .ofText => "string_to_primitive"
  | .ofNumber => "number_to_primitive"
  | .toBoolean => "primitive_to_boolean"
  | .negate => "negation"
  | .greaterThanOrEqual => "greater_than_or_equal_to"
  | .lessThanOrEqual => "less_than_or_equal_to"
  | .equal => "equal_to"
  | .notEqual => "not_equal_to"
  | op => op.usualField

/-- The shape of the method that an operation needs. -/
def shape (op : Operator) : String :=
  op.methodName ++ "(" ++ ", ".intercalate (op.params.map TypeRef.name) ++ ") -> " ++
    op.returns.name

/-- Whether a method is what an operation needs. -/
def fits (op : Operator) (m : MethodDecl) : Bool :=
  m.isStatic && m.isPublic && m.name = op.methodName && m.params = op.params &&
    m.returns = op.returns

/-- The operation as a method with its usual field. -/
def decl (op : Operator) : MethodDecl :=
  { name := op.methodName, params := op.params, returns := op.returns, hasSpecialName := true,
    field? := some op.usualField }

end Operator

/-- The type of values as a runtime support library describes it. -/
def TypeDecl.primitive : TypeDecl :=
  { name := "Primitive", isHidden := true, methods := Operator.all.map Operator.decl }

/-! ## Bindings -/

/-- The method that an operation is bound to. -/
structure Handle where
  name : String
  source : ImportRef
  params : List TypeRef
  returns : TypeRef
deriving DecidableEq, Repr, Inhabited

/-- The methods that the operations are bound to. -/
structure Bindings where
  handle : Operator → Handle

/-- Why operations cannot be bound. -/
inductive BindingError where
  | missingPrimitiveType (name : String)
  | missingOperation (op : Operator)
deriving DecidableEq, Repr

def BindingError.message : BindingError → String
  | .missingPrimitiveType name =>
    s!"runtime support library does not define the primitive type '{name}'"
  | .missingOperation op =>
    s!"primitive operation '{op.shape}' not found in runtime support library"

namespace Bindings

/-- The handle of a method of a type that is imported from a module. -/
def handleOf (module type : String) (m : MethodDecl) : Handle :=
  ⟨m.name, ⟨module, m.field type⟩, m.params, m.returns⟩

/-- Binds an operation to the first method that fits. -/
def bindOne (module : String) (t : TypeDecl) (op : Operator) : Except BindingError Handle :=
  match t.methods.find? op.fits with
  | some m => .ok (handleOf module t.name m)
  | none => .error (.missingOperation op)

/-- The bindings with the given handles, one for each operation in order. -/
def ofHandles (handles : List Handle) : Bindings := ⟨fun op ↦ handles.getD op.index default⟩

/-- Binds every operation to a method of the runtime support library. -/
def resolve (runtime : Library) : Except BindingError Bindings := do
  let name := runtime.manifest.primitive?.getD "Primitive"
  match runtime.manifest.findType? name with
  | none => .error (.missingPrimitiveType name)
  | some t => ofHandles <$> Operator.all.mapM (bindOne runtime.module t)

def handles (b : Bindings) : List Handle := Operator.all.map b.handle

end Bindings

def Handle.toValue (h : Handle) : Value :=
  .object
    [("name", .string h.name), ("import", h.source.toValue),
      ("params", .array (h.params.map TypeRef.toValue)), ("returns", h.returns.toValue)]

def Bindings.toValue (b : Bindings) : Value :=
  .object (Operator.all.map fun op ↦ (op.word, (b.handle op).toValue))

end ScriptWasm
