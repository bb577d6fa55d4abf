import ScriptWasm.Wasm.Section

/-!
# Components

A component is a list of items. Each brings modules, components, instances, functions or types into
the component, where later items refer to them by kind and index, or makes them known outside of it.

The type of a component is a list of items too, as is that of an instance. Only what they export is
not there: they promise it.
-/

namespace ScriptWasm.Wasm.Component

/-! ## Values and functions -/

inductive Primitive where
  | bool
  | s8
  | u8
  | s16
  | u16
  | s32
  | u32
  | s64
  | u64
  | f32
  | f64
  | char
  | string
deriving DecidableEq, Repr

/-- The type of a value: a primitive one, or one that is defined elsewhere. -/
inductive ValueType where
  | primitive (type : Primitive)
  | defined (index : Nat)
deriving DecidableEq, Repr

/-- What a type of values is defined to be. -/
inductive ValueForm where
  | primitive (type : Primitive)
  | record (fields : List (String × ValueType))
  | variant (cases : List (String × Option ValueType))
  | list (item : ValueType)
  | tuple (items : List ValueType)
  | flags (names : List String)
  | enumeration (names : List String)
  | option (item : ValueType)
  | result (good bad : Option ValueType)
  /-- A handle of a resource, to be kept or to be given back. -/
  | own (resource : ValueType)
  | borrow (resource : ValueType)
  /-- No value itself, but what handles are of. Each resource is different from all others. -/
  | resource (identity : Nat)
deriving DecidableEq, Repr

structure Signature where
  params : List (String × ValueType)
  result? : Option ValueType
deriving DecidableEq, Repr

/-! ## Items -/

/-- The kinds of what is in a component. -/
inductive Kind where
  | module
  | func
  | type
  | component
  | inst
deriving DecidableEq, Repr

/-- What a component says about a module from outside. -/
inductive ModuleDeclaration where
  | needs (entry : Import)
  | group (types : TypeGroup)
  /-- A type from `count` levels further out. -/
  | outer (count index : Nat)
  | offers (name : String) (type : ExternType)
deriving Repr

inductive CoreType where
  | group (types : TypeGroup)
  | module (declarations : List ModuleDeclaration)
deriving Repr

/-- An instance of a module: made from it by giving an instance for every module that it imports
from, or put together from what is there. -/
inductive CoreInstance where
  | make (module : Nat) (arguments : List (String × Nat))
  | gather (exports : List Export)
deriving Repr

/-- Something in a component, by kind and index. -/
structure Reference where
  kind : Kind
  index : Nat
deriving DecidableEq, Repr

/-- An instance of a component: made from it by giving what it imports, or put together from what is
there. -/
inductive Instance where
  | make (component : Nat) (arguments : List (String × Reference))
  | gather (exports : List (String × Reference))
deriving Repr

inductive Alias where
  | part (kind : Kind) (inst : Nat) (name : String)
  | corePart (kind : ExternKind) (inst : Nat) (name : String)
  /-- Something from `count` levels further out. -/
  | outer (kind : Kind) (count index : Nat)
  | outerCoreType (count index : Nat)
deriving Repr

/-- How functions of a module meet those of a component. -/
inductive Convention where
  | encoding (code : Nat)
  | memory (index : Nat)
  | realloc (function : Nat)
  | postReturn (function : Nat)
deriving DecidableEq, Repr

/-- Functions that pass between modules and components. Those of a resource make a handle, drop one
and look behind one. -/
inductive Passage where
  | lift (function : Nat) (conventions : List Convention) (type : Nat)
  | lower (function : Nat) (conventions : List Convention)
  | make (resource : Nat)
  | drop (resource : Nat)
  | look (resource : Nat)
deriving Repr

/-- The type of something that goes in or out: what it is, by kind and the index of its type, or
just some resource. -/
inductive Outside where
  | known (type : Reference)
  | resource
deriving Repr

inductive Item where
  | module (m : Module)
  | coreInstance (inst : CoreInstance)
  | coreType (type : CoreType)
  | component (items : List Item)
  | inst (inst : Instance)
  | aliasOf (target : Alias)
  | valueType (form : ValueForm)
  | funcType (type : Signature)
  /-- A resource, what it is inside of the component, and the function that is called at its end. -/
  | resourceType (inside : ValType) (destructor? : Option Nat)
  | componentType (items : List Item)
  | instanceType (items : List Item)
  | passage (function : Passage)
  /-- What is imported. -/
  | needs (name : String) (type : Outside)
  /-- What is exported, possibly as being of a type that says less. -/
  | offers (name : String) (target : Reference) (type? : Option Outside)
  /-- What the type of a component says to be exported. -/
  | promises (name : String) (type : Outside)

end ScriptWasm.Wasm.Component

namespace ScriptWasm.Wasm

abbrev Component := List Component.Item

end ScriptWasm.Wasm
