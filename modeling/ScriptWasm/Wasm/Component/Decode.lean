import ScriptWasm.Wasm.Component.Syntax
import ScriptWasm.Wasm.Container
import ScriptWasm.Wasm.Decode

/-!
# Reading components

The sections of a component are lists of items, or hold a whole binary. They come in any order and
any number of times.

What could be written but cannot be used is not read: values among the things that a component is
made of, and the function that starts one.
-/

namespace ScriptWasm.Wasm.Take

open Component

/-! ## Values and functions -/

def primitive? : UInt8 → Option Primitive
  | 0x7f => some .bool
  | 0x7e => some .s8
  | 0x7d => some .u8
  | 0x7c => some .s16
  | 0x7b => some .u16
  | 0x7a => some .s32
  | 0x79 => some .u32
  | 0x78 => some .s64
  | 0x77 => some .u64
  | 0x76 => some .f32
  | 0x75 => some .f64
  | 0x74 => some .char
  | 0x73 => some .string
  | _ => none

def valueType : Take ValueType := do
  match primitive? (← ahead) with
  | some p =>
    let _ ← byte
    return .primitive p
  | none => return .defined (← signedIndex)

/-- Something behind a byte that tells whether it is there. -/
def optional {α : Type} (read : Take α) : Take (Option α) := do
  match ← byte with
  | 0 => return none
  | 1 => return some (← read)
  | _ => failure

def field : Take (String × ValueType) := do return (← name, ← valueType)

/-- A case of a variant. It may name an earlier case that can stand for it. -/
def variantCase : Take (String × Option ValueType × Option Nat) := do
  return (← name, ← optional valueType, ← optional word)

/-- The cases of a variant, of which each names earlier ones only. -/
def variantCases : Take (List (String × Option ValueType)) := do
  let cases ← vec variantCase
  guard (cases.zipIdx.all fun ((_, _, earlier?), i) ↦ earlier?.all (· < i))
  return cases.map fun (name, type?, _) ↦ (name, type?)

/-- What a type of values is, behind the byte that tells its form. -/
def valueForm (form : UInt8) : Take ValueForm := do
  match form with
  | 0x72 => return .record (← vec field)
  | 0x71 => return .variant (← variantCases)
  | 0x70 => return .list (← valueType)
  | 0x6f => return .tuple (← vec valueType)
  | 0x6e => return .flags (← vec name)
  | 0x6d => return .enumeration (← vec name)
  | 0x6b => return .option (← valueType)
  | 0x69 => return .own (.defined (← word))
  | 0x68 => return .borrow (.defined (← word))
  | 0x6a => return .result (← optional valueType) (← optional valueType)
  | _ => .primitive <$> primitive? form

def signature : Take Signature := do
  let params ← vec field
  match ← byte with
  | 0 => return ⟨params, some (← valueType)⟩
  | 1 =>
    guard ((← byte) = 0)
    return ⟨params, none⟩
  | _ => failure

/-! ## Modules from outside -/

/-- A type from further out: what it is, how it is meant, from where, and which. -/
def outerType : Take (Nat × Nat) := do
  guard ((← bytes 2) = [0x10, 0x01])
  return (← word, ← word)

def moduleDeclaration : Take ModuleDeclaration := do
  match ← byte with
  | 0 => return .needs (← importEntry)
  | 1 => return .group (← typeGroup)
  | 2 =>
    let (count, index) ← outerType
    return .outer count index
  | 3 => return .offers (← name) (← externType)
  | _ => failure

/-- A type that other types can be below is marked, for else it would look like that of a module. -/
def coreType : Take CoreType := do
  match ← ahead with
  | 0x50 =>
    let _ ← byte
    return .module (← vec moduleDeclaration)
  | 0x00 =>
    let _ ← byte
    guard ((← ahead) = 0x50)
    return .group [← subType]
  | _ => return .group (← typeGroup)

def instanceArgument : Take (String × Nat) := do
  let name ← name
  guard ((← byte) = 0x12)
  return (name, ← word)

def coreInstance : Take CoreInstance := do
  match ← byte with
  | 0 => return .make (← word) (← vec instanceArgument)
  | 1 => return .gather (← vec exportEntry)
  | _ => failure

/-! ## What components refer to -/

/-- A kind by its byte, and the byte behind that if it is a thing that modules know. -/
def kind? : UInt8 → Option UInt8 → Option Kind
  | 0x00, some 0x11 => some .module
  | 0x01, none => some .func
  | 0x03, none => some .type
  | 0x04, none => some .component
  | 0x05, none => some .inst
  | _, _ => none

/-- The one or two bytes of a kind. -/
def kindBytes : Take (UInt8 × Option UInt8) := do
  let first ← byte
  if first = 0 then return (first, some (← byte)) else return (first, none)

def kind : Take Kind := do
  let (first, second?) ← kindBytes
  kind? first second?

def reference : Take Reference := do return ⟨← kind, ← word⟩

/-- A kind and the index of a type. A type is equal to another, or is a resource. -/
def outside : Take Outside := do
  let k ← kind
  if k = .type then
    match ← byte with
    | 0 => return .known ⟨k, ← word⟩
    | 1 => return .resource
    | _ => failure
  else return .known ⟨k, ← word⟩

/-- The name of something that is imported or exported. -/
def outerName : Take String := do
  guard ((← byte) ≤ 1)
  name

def inst : Take Instance := do
  match ← byte with
  | 0 => return .make (← word) (← vec do return (← name, ← reference))
  | 1 => return .gather (← vec do return (← outerName, ← reference))
  | _ => failure

/-- What an alias is for stands in front of what it means. -/
def aliasTarget : Take Alias := do
  let (first, second?) ← kindBytes
  match ← byte with
  | 0 => return .part (← kind? first second?) (← word) (← name)
  | 1 =>
    match externKind [← second?] with
    | some (k, _) => return .corePart k (← word) (← name)
    | none => failure
  | 2 =>
    if second? = some 0x10 then return .outerCoreType (← word) (← word)
    else
      let k ← kind? first second?
      guard (k ≠ .func && k ≠ .inst)
      return .outer k (← word) (← word)
  | _ => failure

def convention : Take Convention := do
  match ← byte with
  | 0 => return .encoding 0
  | 1 => return .encoding 1
  | 2 => return .encoding 2
  | 3 => return .memory (← word)
  | 4 => return .realloc (← word)
  | 5 => return .postReturn (← word)
  | _ => failure

def passage : Take Passage := do
  match ← byte with
  | 0 =>
    guard ((← byte) = 0)
    return .lift (← word) (← vec convention) (← word)
  | 1 =>
    guard ((← byte) = 0)
    return .lower (← word) (← vec convention)
  | 2 => return .make (← word)
  | 3 => return .drop (← word)
  | 4 => return .look (← word)
  | _ => failure

/-! ## Items -/

def needs : Take Item := do return .needs (← outerName) (← outside)
def promises : Take Item := do return .promises (← outerName) (← outside)

def offers : Take Item := do
  return .offers (← outerName) (← reference) (← optional outside)

/-- A type. Every type inside of another takes a byte at least, so a number of bytes bounds the
depth. -/
def typeItem : Nat → Take Item
  | 0 => failure
  | depth + 1 => do
    let declaration (needed : Bool) : Take Item := do
      match ← byte with
      | 0 => return .coreType (← coreType)
      | 1 => typeItem depth
      | 2 => return .aliasOf (← aliasTarget)
      | 3 => if needed then needs else failure
      | 4 => promises
      | _ => failure
    match ← byte with
    | 0x40 => return .funcType (← signature)
    | 0x3f => return .resourceType (← valType) (← optional word)
    | 0x41 => return .componentType (← vec (declaration true))
    | 0x42 => return .instanceType (← vec (declaration false))
    | form => return .valueType (← valueForm form)

end ScriptWasm.Wasm.Take

namespace ScriptWasm.Wasm.Component

/-- The items of a section that is a list of them. -/
def listedItems? (s : RawSection) : Option (List Item) :=
  let list (read : Take Item) : Option (List Item) := Take.whole (Take.vec read) s.contents
  match s.id with
  | 0 => (Take.name s.contents).map fun _ ↦ []
  | 2 => list (Item.coreInstance <$> Take.coreInstance)
  | 3 => list (Item.coreType <$> Take.coreType)
  | 5 => list (Item.inst <$> Take.inst)
  | 6 => list (Item.aliasOf <$> Take.aliasTarget)
  | 7 => list (Take.typeItem s.contents.length)
  | 8 => list (Item.passage <$> Take.passage)
  | 10 => list Take.needs
  | 11 => list Take.offers
  | _ => none

end ScriptWasm.Wasm.Component
