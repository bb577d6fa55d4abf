import ScriptWasm.Wasm.Component.Name
import ScriptWasm.Wasm.Component.Syntax
import ScriptWasm.Wasm.Validity

/-!
# What is known of the things in a component

Everything in a component is known from outside only: a module by what it imports and exports, a
function by its signature, an instance by its exports.

Types of values are kept in one list for the whole binary, and referred to by their place in it.
Exporting a type adds it once more. So whether a type has a name outside of a component can be asked
of a place, though two places can hold the same type.
-/

namespace ScriptWasm.Wasm

/-! ## Modules from outside -/

/-- What a module imports or exports. -/
inductive CoreEntity where
  | function (type : FuncType)
  | table (type : TableType)
  | memory (type : MemoryType)
  | global (type : GlobalType)
  | tag (params : List ValType)
deriving DecidableEq, Repr

structure ModuleType where
  imports : List ((String × String) × CoreEntity)
  exports : List (String × CoreEntity)
deriving DecidableEq, Repr

/-- Whether something of the first size can be used for something of the second. -/
def Limits.fits (a b : Limits) : Bool :=
  a.isWide = b.isWide && b.min ≤ a.min &&
    match a.max?, b.max? with
    | some m, some n => m ≤ n
    | none, some _ => false
    | _, none => true

namespace CoreEntity

def kind : CoreEntity → ExternKind
  | .function _ => .function
  | .table _ => .table
  | .memory _ => .memory
  | .global _ => .global
  | .tag _ => .tag

/-- What the type of an import or export stands for, if it is valid. -/
def ofType? (types : TypeSpace) : ExternType → Option CoreEntity
  | .function i => (types.func? i).map .function
  | .table t => if t.isValid then (t.normal? types).map .table else none
  | .memory t => if t.isValid then some (.memory t) else none
  | .global t => (t.normal? types).map .global
  | .tag i => (types.carried? i).map .tag

/-- Whether the type of a value means the same in every module. -/
def isPlain (t : ValType) : Bool := (t.mapIndex fun _ ↦ none).isSome

/-- Whether one thing can be used for another. Types that a module defines belong to that module. -/
def fits : CoreEntity → CoreEntity → Bool
  | .function a, .function b => a = b && (a.params ++ a.results).all isPlain
  | .table a, .table b =>
    a.element = b.element && isPlain (.ref a.element) && a.limits.fits b.limits
  | .memory a, .memory b => a.isShared = b.isShared && a.limits.fits b.limits
  | .global a, .global b => a = b && isPlain a.value
  | .tag a, .tag b => a = b && a.all isPlain
  | _, _ => false

end CoreEntity

/-- A module that needs less and offers more can be used for another. -/
def ModuleType.fits (a b : ModuleType) : Bool :=
  (a.imports.all fun (name, needed) ↦ (b.imports.lookup name).any (·.fits needed)) &&
    b.exports.all fun (name, expected) ↦ (a.exports.lookup name).any (·.fits expected)

/-- What can be referred to with a kind and an index. -/
def Context.entity? (c : Context) (kind : ExternKind) (index : Nat) : Option CoreEntity :=
  match kind with
  | .function => (c.function? index).map .function
  | .table => c.tables[index]?.map .table
  | .memory => c.memories[index]?.map .memory
  | .global => c.globals[index]?.map .global
  | .tag => c.tags[index]?.map .tag

/-- A valid module from outside. Inside of a component, it imports nothing twice. -/
def Module.type? (m : Module) : Option ModuleType := do
  guard m.isValid
  let c ← m.context?
  let imports ← m.imports.mapM fun i ↦
    (CoreEntity.ofType? c.types i.type).map ((i.module, i.field), ·)
  let exports ← m.exports.mapM fun e ↦ (c.entity? e.kind e.index).map (e.name, ·)
  guard (imports.map Prod.fst).Nodup
  return ⟨imports, exports⟩

namespace Component

/-! ## Values -/

/-- The types that a type is made of. -/
def ValueForm.parts : ValueForm → List ValueType
  | .record fields => fields.map Prod.snd
  | .variant cases => cases.filterMap Prod.snd
  | .list item | .option item | .own item | .borrow item => [item]
  | .tuple items => items
  | .result good bad => good.toList ++ bad.toList
  | .primitive _ | .flags _ | .enumeration _ | .resource _ => []

/-- Replaces the references in a type. -/
def ValueType.mapIndex (f : Nat → Option Nat) : ValueType → Option ValueType
  | .primitive p => some (.primitive p)
  | .defined i => (f i).map .defined

/-- Replaces a reference that need not be there. -/
def mapOptional (f : Nat → Option Nat) : Option ValueType → Option (Option ValueType)
  | none => some none
  | some t => (t.mapIndex f).map some

def ValueForm.mapIndex (f : Nat → Option Nat) : ValueForm → Option ValueForm
  | .record fields => .record <$> fields.mapM fun (n, t) ↦ (t.mapIndex f).map (n, ·)
  | .variant cases => .variant <$> cases.mapM fun (n, t) ↦ (mapOptional f t).map (n, ·)
  | .list item => (item.mapIndex f).map .list
  | .tuple items => .tuple <$> items.mapM (ValueType.mapIndex f)
  | .option item => (item.mapIndex f).map .option
  | .own item => (item.mapIndex f).map .own
  | .borrow item => (item.mapIndex f).map .borrow
  | .result good bad => do return .result (← mapOptional f good) (← mapOptional f bad)
  | form => some form

/-- Nothing of which a value is made is without a name, there is something, and not too much. -/
def ValueForm.isValid : ValueForm → Bool
  | .record fields => !fields.isEmpty && areLabels (fields.map Prod.fst)
  | .variant cases => !cases.isEmpty && areLabels (cases.map Prod.fst)
  | .tuple items => !items.isEmpty
  | .flags names => !names.isEmpty && names.length ≤ 32 && areLabels names
  | .enumeration names => !names.isEmpty && areLabels names
  | _ => true

/-- Whether a type has to have a name outside of a component to be used there. -/
def ValueForm.isNominal : ValueForm → Bool
  | .record _ | .variant _ | .flags _ | .enumeration _ | .resource _ => true
  | _ => false

/-- Whether a type is made of resources, not of values. -/
def ValueForm.isHandle : ValueForm → Bool
  | .own _ | .borrow _ => true
  | _ => false

/-- A type of values, and how much it takes to write it out. -/
structure ValueEntry where
  form : ValueForm
  size : Nat
deriving Repr

/-- The types of values in a binary, each of which refers to earlier ones only. -/
abbrev ValueStore := List ValueEntry

namespace ValueStore

def size (s : ValueStore) : ValueType → Nat
  | .primitive _ => 1
  | .defined i => s[i]?.elim 1 ValueEntry.size

def sizeOf (s : ValueStore) (types : List ValueType) : Nat :=
  types.foldr (fun t n ↦ s.size t + n) 1

def isResource (s : ValueStore) : ValueType → Bool
  | .primitive _ => false
  | .defined i =>
    match s[i]? with
    | some ⟨.resource _, _⟩ => true
    | _ => false

/-- Whether a value is partly only borrowed. -/
def hasBorrow (s : ValueStore) : Nat → ValueType → Bool
  | _, .primitive _ => false
  | 0, .defined _ => false
  | depth + 1, .defined i =>
    match s[i]? with
    | some ⟨.borrow _, _⟩ => true
    | some e => e.form.parts.any (hasBorrow s depth)
    | none => false

/-- Whether a type can be used outside of a component where the types at some places have names.
The type at a place is made of types at earlier places, so their number bounds the depth. -/
def isNamed (s : ValueStore) (named : List Nat) : Nat → ValueType → Bool
  | _, .primitive _ => true
  | 0, .defined _ => false
  | depth + 1, .defined i =>
    match s[i]? with
    | some e =>
      if e.form.isNominal then named.contains i else e.form.parts.all (isNamed s named depth)
    | none => false

/-- What a reference comes to, if it is a primitive type after all. -/
def resolve (s : ValueStore) : ValueType → ValueType
  | .primitive p => .primitive p
  | .defined i =>
    match s[i]? with
    | some ⟨.primitive p, _⟩ => .primitive p
    | _ => .defined i

/-- Whether two types are the same, wherever they are. -/
def same (s : ValueStore) : Nat → ValueType → ValueType → Bool
  | depth, a, b =>
    match s.resolve a, s.resolve b, depth with
    | .primitive p, .primitive q, _ => p = q
    | .defined i, .defined j, depth + 1 =>
      match s[i]?, s[j]? with
      | some e, some f =>
        e.form.mapIndex (fun _ ↦ some 0) = f.form.mapIndex (fun _ ↦ some 0) &&
          (e.form.parts.zip f.form.parts).all fun (a, b) ↦ same s depth a b
      | _, _ => false
    | _, _, _ => false

/-! ## Values as numbers -/

/-- How many numbers a function can be given, and how many it can return. -/
def mostParams : Nat := 16
def mostResults : Nat := 1

def Primitive.flat : Primitive → List ValType
  | .s64 | .u64 => [.i64]
  | .f32 => [.f32]
  | .f64 => [.f64]
  | .string => [.i32, .i32]
  | _ => [.i32]

/-- A number that can hold numbers of both types. -/
def join (a b : ValType) : ValType :=
  if a = b then a
  else if [a, b].all fun t ↦ t = .i32 || t = .f32 then .i32
  else .i64

/-- Numbers for one or the other of two cases. -/
def joinAll : List ValType → List ValType → List ValType
  | a :: as, b :: bs => join a b :: joinAll as bs
  | [], bs => bs
  | as, [] => as

/-- The numbers that a value is passed as, if they are not too many. -/
def flat? (s : ValueStore) : Nat → ValueType → Option (List ValType)
  | _, .primitive p => some (Primitive.flat p)
  | 0, .defined _ => none
  | depth + 1, .defined i => do
    let e ← s[i]?
    let bounded (types : List ValType) : Option (List ValType) :=
      if types.length ≤ mostParams then some types else none
    let cases (types : List ValueType) : Option (List ValType) := do
      bounded (.i32 :: (← types.mapM (flat? s depth)).foldl joinAll [])
    match e.form with
    | .primitive p => some (Primitive.flat p)
    | .record _ | .tuple _ =>
      e.form.parts.foldlM (fun front t ↦ do bounded (front ++ (← flat? s depth t))) []
    | .list _ => some [.i32, .i32]
    | .flags _ | .enumeration _ | .own _ | .borrow _ => some [.i32]
    | .resource _ => none
    | .variant _ | .option _ | .result .. => cases e.form.parts

/-- Whether a value is partly kept in a memory. -/
def hasPointer (s : ValueStore) : Nat → ValueType → Bool
  | _, .primitive p => p = .string
  | 0, .defined _ => false
  | depth + 1, .defined i =>
    match s[i]? with
    | some e =>
      match e.form with
      | .primitive p => p = .string
      | .list _ => true
      | form => form.parts.any (hasPointer s depth)
    | none => false

end ValueStore

/-! ## Functions -/

namespace Signature

/-- The types that a signature is made of. -/
def parts (t : Signature) : List ValueType := t.params.map Prod.snd ++ t.result?.toList

def mapIndex (f : Nat → Option Nat) (t : Signature) : Option Signature := do
  let params ← t.params.mapM fun (n, type) ↦ (type.mapIndex f).map (n, ·)
  return ⟨params, ← mapOptional f t.result?⟩

def same (s : ValueStore) (a b : Signature) : Bool :=
  a.params.map Prod.fst = b.params.map Prod.fst && a.result?.isSome = b.result?.isSome &&
    (a.parts.zip b.parts).all fun (x, y) ↦ s.same s.length x y

/-- The function in a module that a function of a component is, and whether the module has to have
a memory and a function that allocates in it. -/
structure Lowered where
  type : FuncType
  usesMemory : Bool
  usesRealloc : Bool
deriving Repr

/-- What a function comes to that a module is given, or that it gives if `lifts`. What is too much
for numbers is passed in memory. The caller of a function that a module gives has to allocate there
what it passes, and the function that a module is given has to allocate what it returns. -/
def lowered (s : ValueStore) (lifts : Bool) (t : Signature) : Lowered :=
  let flat? (types : List ValueType) (most : Nat) : Option (List ValType) := do
    let all := (← types.mapM (s.flat? s.length)).flatten
    if all.length ≤ most then some all else none
  let params := t.params.map Prod.snd
  let results := t.result?.toList
  let params? := flat? params ValueStore.mostParams
  let results? := flat? results ValueStore.mostResults
  let pointers (types : List ValueType) : Bool := types.any (s.hasPointer s.length)
  let usesRealloc :=
    if lifts then pointers params || params?.isNone else pointers results
  let type : FuncType :=
    match results? with
    | some results => ⟨params?.getD [.i32], results⟩
    | none => if lifts then ⟨params?.getD [.i32], [.i32]⟩ else ⟨params?.getD [.i32] ++ [.i32], []⟩
  ⟨type, usesRealloc || params?.isNone || results?.isNone || pointers (params ++ results),
    usesRealloc⟩

end Signature

/-! ## Things -/

/-- What is known of a thing, or of the things of a type. What stands by a name is a type if so
marked. -/
inductive Form where
  | module (type : ModuleType)
  | func (type : Signature)
  /-- A type of values or a resource, by its place. -/
  | value (place : Nat)
  | inst (exports : List (String × Bool × Form))
  | component (imports exports : List (String × Bool × Form))

/-- A thing, or a type if so marked. -/
abbrev Entity := Bool × Form

/-- Things by name. -/
abbrev Named := List (String × Entity)

/-- The kind of a thing that is not a type. Values have none. -/
def Form.kind? : Form → Option Kind
  | .module _ => some .module
  | .func _ => some .func
  | .value _ => none
  | .inst _ => some .inst
  | .component .. => some .component

def Entity.kind? (e : Entity) : Option Kind := if e.1 then some .type else e.2.kind?

/-- How deep things may be inside of each other to be compared. -/
def deepest : Nat := 1000

/-- Whether one thing can be used for another, if neither is too deep. -/
def Form.fits (s : ValueStore) : Nat → Form → Form → Bool
  | _, .module a, .module b => a.fits b
  | _, .func a, .func b => a.same s b
  | _, .value i, .value j => s.same s.length (.defined i) (.defined j)
  | depth + 1, .inst as, .inst bs => offers depth as bs
  | depth + 1, .component needs as, .component given bs =>
    offers depth given needs && offers depth as bs
  | _, _, _ => false
where
  /-- Whether there is everything that is expected. -/
  offers (depth : Nat) (given expected : Named) : Bool :=
    expected.all fun (name, isType, b) ↦
      match given.lookup name with
      | some (isGivenType, a) => isType = isGivenType && Form.fits s depth a b
      | none => false

end Component

end ScriptWasm.Wasm
