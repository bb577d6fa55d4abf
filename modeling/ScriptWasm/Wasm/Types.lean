/-!
# Types of WebAssembly

The types of values, functions, aggregates, tables, memories, globals and blocks.

A reference has a heap type: one of the kinds that exist in every module, or a type that the module
defines, by its index. What an index stands for, and when one type can be used for another, is a
matter of the module; see `TypeSpace`.
-/

namespace ScriptWasm.Wasm

/-! ## References -/

/-- The kinds of things that can be referred to in every module. -/
inductive HeapKind where
  | func
  | external
  | any
  | eq
  | i31
  | struct
  | array
  | exn
  /-- Nothing but null, for each of the four families. -/
  | nofunc
  | noexternal
  | none
  | noexn
deriving DecidableEq, Repr, Inhabited

namespace HeapKind

def name : HeapKind → String
  | .func => "func"
  | .external => "extern"
  | .any => "any"
  | .eq => "eq"
  | .i31 => "i31"
  | .struct => "struct"
  | .array => "array"
  | .exn => "exn"
  | .nofunc => "nofunc"
  | .noexternal => "noextern"
  | .none => "none"
  | .noexn => "noexn"

/-- The byte that stands for a kind. -/
def byte : HeapKind → UInt8
  | .func => 0x70
  | .external => 0x6f
  | .any => 0x6e
  | .eq => 0x6d
  | .i31 => 0x6c
  | .struct => 0x6b
  | .array => 0x6a
  | .exn => 0x69
  | .nofunc => 0x73
  | .noexternal => 0x72
  | .none => 0x71
  | .noexn => 0x74

def all : List HeapKind :=
  [.func, .external, .any, .eq, .i31, .struct, .array, .exn, .nofunc, .noexternal, .none, .noexn]

def ofByte? (b : UInt8) : Option HeapKind := all.find? (·.byte = b)

end HeapKind

/-- What a reference points to: something of a kind, or of a type that the module defines. -/
inductive HeapType where
  | kind (kind : HeapKind)
  | index (index : Nat)
deriving DecidableEq, Repr, Inhabited

/-- The type of a reference; a nullable one may also point to nothing. -/
structure RefType where
  nullable : Bool
  heap : HeapType
deriving DecidableEq, Repr, Inhabited

namespace RefType

/-- A reference to something of a kind, or null. -/
def orNull (kind : HeapKind) : RefType := ⟨true, .kind kind⟩

/-- A reference to something of a kind. -/
def nonNull (kind : HeapKind) : RefType := ⟨false, .kind kind⟩

def name : RefType → String
  | ⟨nullable, .kind kind⟩ => if nullable then kind.name ++ "ref" else "(ref " ++ kind.name ++ ")"
  | ⟨nullable, .index i⟩ => (if nullable then "(ref null " else "(ref ") ++ toString i ++ ")"

end RefType

/-! ## Values -/

inductive ValType where
  | i32
  | i64
  | f32
  | f64
  | v128
  | ref (type : RefType)
deriving DecidableEq, Repr, Inhabited

namespace ValType

@[match_pattern] abbrev funcref : ValType := .ref ⟨true, .kind .func⟩
@[match_pattern] abbrev externref : ValType := .ref ⟨true, .kind .external⟩

def name : ValType → String
  | .i32 => "i32"
  | .i64 => "i64"
  | .f32 => "f32"
  | .f64 => "f64"
  | .v128 => "v128"
  | .ref type => type.name

/-- The types of numbers and vectors, and the references that every host knows. -/
def basic : List ValType := [.i32, .i64, .f32, .f64, .v128, .funcref, .externref]

/-- Whether values of the type refer to something. -/
def isReference : ValType → Bool
  | .ref _ => true
  | _ => false

/-- Whether there is a value that a variable of the type starts with. -/
def hasDefault : ValType → Bool
  | .ref type => type.nullable
  | _ => true

end ValType

/-! ## Defined types -/

/-- The signature of a function. -/
structure FuncType where
  params : List ValType
  results : List ValType
deriving DecidableEq, Repr, Inhabited

/-- What a part of an aggregate stores: a value, or the low bits of a word. -/
inductive StorageType where
  | i8
  | i16
  | value (type : ValType)
deriving DecidableEq, Repr

namespace StorageType

/-- The type of the values that are put in and taken out. -/
def unpacked : StorageType → ValType
  | .value type => type
  | _ => .i32

def isPacked : StorageType → Bool
  | .value _ => false
  | _ => true

end StorageType

/-- A part of an aggregate. -/
structure FieldType where
  storage : StorageType
  isMutable : Bool
deriving DecidableEq, Repr

inductive CompositeType where
  | func (type : FuncType)
  | struct (fields : List FieldType)
  | array (element : FieldType)
deriving DecidableEq, Repr

/-- A type that a module defines. It may be declared to be below another one, unless that is final.
-/
structure SubType where
  isFinal : Bool
  super? : Option Nat
  composite : CompositeType
deriving DecidableEq, Repr

/-- Types that are defined together and can refer to each other. -/
abbrev TypeGroup := List SubType

/-- A function type that stands alone. -/
def FuncType.group (t : FuncType) : TypeGroup := [⟨true, none, .func t⟩]

/-! ## What modules hold -/

/-- The least size of a table or a memory, and the size that it cannot grow beyond. What is wide is
addressed by 64 bits. -/
structure Limits where
  min : Nat
  max? : Option Nat
  isWide : Bool := false
deriving DecidableEq, Repr

/-- The type of addresses, and of sizes. -/
def Limits.addressType (l : Limits) : ValType := if l.isWide then .i64 else .i32

/-- Memories are measured in pages. -/
structure MemoryType where
  limits : Limits
  isShared : Bool := false
deriving DecidableEq, Repr

structure TableType where
  element : RefType
  limits : Limits
deriving DecidableEq, Repr

structure GlobalType where
  value : ValType
  isMutable : Bool
deriving DecidableEq, Repr

/-- The type of a block: parameters and results are named by a signature, or there is at most one
result and no parameter. -/
inductive BlockType where
  | empty
  | value (type : ValType)
  | signature (index : Nat)
deriving DecidableEq, Repr

end ScriptWasm.Wasm
