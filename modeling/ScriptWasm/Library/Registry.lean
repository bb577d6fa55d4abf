import ScriptWasm.Json.Value
import ScriptWasm.Text.Lowercase

/-!
# The registry of library members

The registry holds what programs may call. Types and members are found by their names in lower case;
what is found keeps its spelling, and says which import it stands for.
-/

namespace ScriptWasm

open Json

/-! ## Tables in the order of their keys -/

/-- A table in which every key occurs once. The entries are in the order of their keys. -/
structure KeyTable (α : Type) where
  entries : List (String × α)
deriving Repr, DecidableEq

namespace KeyTable

variable {α : Type}

def empty : KeyTable α := ⟨[]⟩

def get? (t : KeyTable α) (key : String) : Option α := t.entries.lookup key

def insertEntry (key : String) (value : α) : List (String × α) → List (String × α)
  | [] => [(key, value)]
  | (k, v) :: rest =>
    if key = k then (key, value) :: rest
    else if key < k then (key, value) :: (k, v) :: rest
    else (k, v) :: insertEntry key value rest

/-- Enters a value, in place of the one that has its key. -/
def insert (t : KeyTable α) (key : String) (value : α) : KeyTable α :=
  ⟨insertEntry key value t.entries⟩

/-- Enters a value, unless there is one with its key. -/
def insertNew (t : KeyTable α) (key : String) (value : α) : KeyTable α :=
  if (t.get? key).isSome then t else t.insert key value

def isEmpty (t : KeyTable α) : Bool := t.entries.isEmpty

def size (t : KeyTable α) : Nat := t.entries.length

def toValue (write : α → Value) (t : KeyTable α) : Value :=
  .object (t.entries.map fun (k, v) ↦ (k, write v))

end KeyTable

/-! ## Descriptors -/

/-- Where a function is imported from. -/
structure ImportRef where
  module : String
  field : String
deriving DecidableEq, Repr, Inhabited

def ImportRef.toValue (r : ImportRef) : Value :=
  .object [("module", .string r.module), ("field", .string r.field)]

/-- A method that takes values only and returns a value or nothing. -/
structure MethodDescriptor where
  type : String
  name : String
  source : ImportRef
  paramCount : Nat
  returnsValue : Bool
deriving DecidableEq, Repr

/-- A property that holds a value. Without a getter it cannot be read, without a setter it cannot be
written. -/
structure PropertyDescriptor where
  type : String
  name : String
  getter? : Option ImportRef
  setter? : Option ImportRef
deriving DecidableEq, Repr

/-- An event that calls a routine without parameters. -/
structure EventDescriptor where
  type : String
  name : String
  subscribe : ImportRef
deriving DecidableEq, Repr

/-- What programs may call on one type. -/
structure TypeDescriptor where
  name : String
  isHidden : Bool
  methods : KeyTable MethodDescriptor
  properties : KeyTable PropertyDescriptor
  events : KeyTable EventDescriptor
deriving DecidableEq, Repr

namespace TypeDescriptor

/-- A type without members. -/
def bare (name : String) (isHidden : Bool) : TypeDescriptor :=
  ⟨name, isHidden, .empty, .empty, .empty⟩

def isEmpty (t : TypeDescriptor) : Bool :=
  t.methods.isEmpty && t.properties.isEmpty && t.events.isEmpty

end TypeDescriptor

/-! ## The registry -/

structure Registry where
  types : KeyTable TypeDescriptor
deriving DecidableEq, Repr

namespace Registry

/-- The form of a name by which types and members are found. -/
def key (name : String) : String := Text.lowercase name

def empty : Registry := ⟨.empty⟩

/-- Enters a type, in place of the one of the same name. -/
def insert (r : Registry) (t : TypeDescriptor) : Registry := ⟨r.types.insert (key t.name) t⟩

def get? (r : Registry) (type : String) : Option TypeDescriptor := r.types.get? (key type)

def method? (r : Registry) (type method : String) : Option MethodDescriptor :=
  (r.get? type).bind fun t ↦ t.methods.get? (key method)

def property? (r : Registry) (type property : String) : Option PropertyDescriptor :=
  (r.get? type).bind fun t ↦ t.properties.get? (key property)

def event? (r : Registry) (type event : String) : Option EventDescriptor :=
  (r.get? type).bind fun t ↦ t.events.get? (key event)

end Registry

/-! ## Writing -/

def MethodDescriptor.toValue (m : MethodDescriptor) : Value :=
  .object
    [("type_name", .string m.type), ("name", .string m.name), ("import", m.source.toValue),
      ("param_count", .natural m.paramCount), ("returns_value", .boolean m.returnsValue)]

def PropertyDescriptor.toValue (p : PropertyDescriptor) : Value :=
  .object
    [("type_name", .string p.type), ("name", .string p.name),
      ("getter", (p.getter?.map ImportRef.toValue).getD .null),
      ("setter", (p.setter?.map ImportRef.toValue).getD .null)]

def EventDescriptor.toValue (e : EventDescriptor) : Value :=
  .object
    [("type_name", .string e.type), ("name", .string e.name), ("subscribe", e.subscribe.toValue)]

def TypeDescriptor.toValue (t : TypeDescriptor) : Value :=
  .object
    [("name", .string t.name), ("hidden", .boolean t.isHidden),
      ("methods", t.methods.toValue MethodDescriptor.toValue),
      ("properties", t.properties.toValue PropertyDescriptor.toValue),
      ("events", t.events.toValue EventDescriptor.toValue)]

def Registry.toValue (r : Registry) : Value :=
  .object [("types", r.types.toValue TypeDescriptor.toValue)]

end ScriptWasm
