import ScriptWasm.Wasm.Instr
import ScriptWasm.Wasm.Opcode
import ScriptWasm.Wasm.TypeSpace

/-!
# Types of code

Checking walks over the tree with the operand stack of the current block as its only state. The
stack is relative to the block, so code in a block cannot reach below it. Behind an instruction that
never falls through, the stack has no bottom: whatever is popped from it is there, and of whatever
type is needed.

The instructions of a block are checked against the labels in scope, innermost first; a label is the
list of types that a branch to it takes along.
-/

namespace ScriptWasm.Wasm

/-- What code can refer to. All types are in normal form. -/
structure Context where
  types : TypeSpace
  /-- The indices of the types of all functions, imported ones first. -/
  functions : List Nat
  tables : List TableType
  memories : List MemoryType
  globals : List GlobalType
  /-- What the exceptions with each tag carry. -/
  tags : List (List ValType)
  /-- The types of the element segments. -/
  elements : List RefType
  dataCount? : Option Nat
  /-- The functions that a reference can be taken to. -/
  referable : List Nat
  locals : List ValType
  results : List ValType
deriving Repr

/-- The signature of a function. -/
def Context.function? (c : Context) (f : Nat) : Option FuncType :=
  c.functions[f]?.bind c.types.func?

/-! ## Operand stacks -/

/-- What is known of an operand. -/
inductive Operand where
  /-- Anything that may be needed. -/
  | any
  /-- A reference, of some kind if that is known. -/
  | reference (kind? : Option HeapKind)
  | known (type : ValType)
deriving DecidableEq, Repr

namespace Operand

/-- Whether an operand can be used for a value of a type. -/
def isFit (s : TypeSpace) : Operand → ValType → Bool
  | .any, _ => true
  | .reference none, t => t.isReference
  | .reference (some kind), .ref t => s.refMatches (.nonNull kind) t
  | .reference (some _), _ => false
  | .known t, u => s.valMatches t u

/-- An operand that is a reference. -/
def asReference? : Operand → Option Operand
  | .any => some (.reference none)
  | .reference kind? => some (.reference kind?)
  | .known (.ref t) => some (.known (.ref t))
  | .known _ => none

/-- A reference that is known not to be null. -/
def nonNull : Operand → Operand
  | .known (.ref t) => .known (.ref { t with nullable := false })
  | o => o

/-- A reference to what something is when seen as another kind. -/
def converted (kind : HeapKind) : Operand → Operand
  | .known (.ref t) => .known (.ref ⟨t.nullable, .kind kind⟩)
  | _ => .reference (some kind)

end Operand

/-- The operands of a block, the topmost first. -/
structure Operands where
  known : List Operand
  bottomless : Bool
deriving DecidableEq, Repr

namespace Operands

/-- The stack that a block starts with. -/
def empty : Operands := ⟨[], false⟩

/-- The stack behind an instruction that never falls through. -/
def afterJump : Operands := ⟨[], true⟩

def pushOne (s : Operands) (o : Operand) : Operands := ⟨o :: s.known, s.bottomless⟩

/-- Puts values on the stack, the last one on top. -/
def push (s : Operands) (ts : List ValType) : Operands :=
  ⟨ts.reverse.map .known ++ s.known, s.bottomless⟩

/-- Takes one value from the top, of whatever type. -/
def popAny : Operands → Option (Operand × Operands)
  | ⟨o :: rest, b⟩ => some (o, ⟨rest, b⟩)
  | ⟨[], true⟩ => some (.any, ⟨[], true⟩)
  | ⟨[], false⟩ => none

/-- Takes a reference from the top, to whatever it is. -/
def popReference (s : Operands) : Option (Operand × Operands) := do
  let (o, s) ← s.popAny
  return (← o.asReference?, s)

/-- Takes one value of a type from the top. -/
def popOne (space : TypeSpace) (s : Operands) (t : ValType) : Option Operands :=
  match s.popAny with
  | some (o, rest) => if o.isFit space t then some rest else none
  | none => none

/-- Takes values from the stack, the last one from the top. -/
def pop (space : TypeSpace) (s : Operands) (ts : List ValType) : Option Operands :=
  ts.reverse.foldlM (popOne space) s

/-- Takes so many values of one type. A stack without a bottom can give any number of them. -/
def popMany (space : TypeSpace) (t : ValType) : (count : Nat) → Operands → Option Operands
  | 0, s => some s
  | count + 1, s =>
    if s = afterJump then some s
    else
      match s.popOne space t with
      | some s => popMany space t count s
      | none => none

/-- Takes the parameters of a signature and puts its results. -/
def apply (space : TypeSpace) (s : Operands) (t : FuncType) : Option Operands :=
  (s.pop space t.params).map (·.push t.results)

/-- Whether exactly the given values are left. -/
def isExactly (space : TypeSpace) (s : Operands) (ts : List ValType) : Bool :=
  match s.pop space ts with
  | some rest => rest.known.isEmpty
  | none => false

end Operands

/-! ## Instructions with a signature -/

/-- The signature of a block. -/
def BlockType.signature? (s : TypeSpace) : BlockType → Option FuncType
  | .empty => some ⟨[], []⟩
  | .value t => (s.val? t).map (⟨[], [·]⟩)
  | .signature i => s.func? i

/-- What an access to memory needs: the memory exists, the alignment is not more than natural, and
the offset is an address. The result is the type of addresses. -/
def accessType? (c : Context) (width : Nat) (m : MemArg) : Option ValType := do
  let memory ← c.memories[m.memory]?
  guard (m.align ≤ width && (memory.limits.isWide || m.offset < UInt32.size))
  return memory.limits.addressType

/-- What an access in one step needs: the alignment is natural. -/
def atomicType? (c : Context) (width : Nat) (m : MemArg) : Option ValType := do
  let memory ← c.memories[m.memory]?
  guard (m.align = width)
  return memory.limits.addressType

/-- The signature of an access, from the type of addresses. -/
def Access.type (a : Access) (address : ValType) : FuncType := ⟨address :: a.takes, a.gives⟩

/-- The smaller one of two types of addresses, for a number that both have to hold. -/
def commonAddress (a b : Limits) : ValType := if a.isWide then b.addressType else a.addressType

def Vector.signature? (c : Context) : Vector → Option FuncType
  | .plain code => Vector.type? code
  | .const _ => some ⟨[], [.v128]⟩
  | .shuffle _ => some ⟨[.v128, .v128], [.v128]⟩
  | .lane code _ => (Vector.lane? code).map (·.2)
  | .access code m => do
    let a ← Vector.access? code
    return a.type (← accessType? c a.width m)
  | .laneAccess code m _ => do
    let a ← Vector.laneAccess? code
    return a.type (← accessType? c a.width m)

/-- References to values of the type with an index. -/
def Context.refTo? (c : Context) (nullable : Bool) (type : Nat) : Option ValType :=
  (c.types.first? type).map fun i ↦ .ref ⟨nullable, .index i⟩

/-- A field that may be read in the given way: bits are extended exactly if it is packed. -/
def FieldType.read? (f : FieldType) (extension? : Option Extension) : Option ValType := do
  guard (f.storage.isPacked = extension?.isSome)
  return f.storage.unpacked

/-- A field that may be written. -/
def FieldType.written? (f : FieldType) : Option ValType := do
  guard f.isMutable
  return f.storage.unpacked

def Context.hasData (c : Context) (data : Nat) : Bool := c.dataCount?.any (data < ·)

/-- Whether the items of an element segment can be put where something is stored. -/
def Context.suppliesElements (c : Context) (element : Nat) (storage : StorageType) : Bool :=
  match c.elements[element]?, storage with
  | some t, .value (.ref u) => c.types.refMatches t u
  | _, _ => false

namespace Aggregate

/-- Whether data can be put where something is stored. -/
def holdsData (storage : StorageType) : Bool := !storage.unpacked.isReference

/-- The signature of an instruction that takes a fixed number of operands. -/
def signature? (c : Context) : Aggregate → Option FuncType
  | .structNew type => do
    let fields ← c.types.struct? type
    return ⟨fields.map (·.storage.unpacked), [← c.refTo? false type]⟩
  | .structNewDefault type => do
    let fields ← c.types.struct? type
    guard (fields.all (·.storage.unpacked.hasDefault))
    return ⟨[], [← c.refTo? false type]⟩
  | .structGet type field extension? => do
    let f ← (← c.types.struct? type)[field]?
    return ⟨[← c.refTo? true type], [← f.read? extension?]⟩
  | .structSet type field => do
    let f ← (← c.types.struct? type)[field]?
    return ⟨[← c.refTo? true type, ← f.written?], []⟩
  | .arrayNew type => do
    let f ← c.types.array? type
    return ⟨[f.storage.unpacked, .i32], [← c.refTo? false type]⟩
  | .arrayNewDefault type => do
    let f ← c.types.array? type
    guard f.storage.unpacked.hasDefault
    return ⟨[.i32], [← c.refTo? false type]⟩
  | .arrayNewFixed .. => none
  | .arrayNewData type data => do
    let f ← c.types.array? type
    guard (holdsData f.storage && c.hasData data)
    return ⟨[.i32, .i32], [← c.refTo? false type]⟩
  | .arrayNewElement type element => do
    let f ← c.types.array? type
    guard (c.suppliesElements element f.storage)
    return ⟨[.i32, .i32], [← c.refTo? false type]⟩
  | .arrayGet type extension? => do
    let f ← c.types.array? type
    return ⟨[← c.refTo? true type, .i32], [← f.read? extension?]⟩
  | .arraySet type => do
    let f ← c.types.array? type
    return ⟨[← c.refTo? true type, .i32, ← f.written?], []⟩
  | .arrayLength => some ⟨[.ref (.orNull .array)], [.i32]⟩
  | .arrayFill type => do
    let f ← c.types.array? type
    return ⟨[← c.refTo? true type, .i32, ← f.written?, .i32], []⟩
  | .arrayCopy target source => do
    let t ← c.types.array? target
    let s ← c.types.array? source
    guard (t.isMutable && c.types.storageMatches s.storage t.storage)
    return ⟨[← c.refTo? true target, .i32, ← c.refTo? true source, .i32, .i32], []⟩
  | .arrayInitData type data => do
    let f ← c.types.array? type
    guard (f.isMutable && holdsData f.storage && c.hasData data)
    return ⟨[← c.refTo? true type, .i32, .i32, .i32], []⟩
  | .arrayInitElement type element => do
    let f ← c.types.array? type
    guard (f.isMutable && c.suppliesElements element f.storage)
    return ⟨[← c.refTo? true type, .i32, .i32, .i32], []⟩

end Aggregate

/-- A call through a table: what it takes and what it gives. -/
def indirectType? (c : Context) (type table : Nat) : Option FuncType := do
  let t ← c.tables[table]?
  guard (c.types.refMatches t.element (.orNull .func))
  let ft ← c.types.func? type
  return ⟨ft.params ++ [t.limits.addressType], ft.results⟩

/-- A call through a reference. -/
def referenceType? (c : Context) (type : Nat) : Option FuncType := do
  let ft ← c.types.func? type
  return ⟨ft.params ++ [← c.refTo? true type], ft.results⟩

/-- The result of a cast from the largest type around the target. -/
def castType? (c : Context) (target : RefType) : Option (ValType × ValType) := do
  let t ← c.types.ref? target
  return (.ref (.orNull (c.types.top t.heap)), .ref t)

/-- The signature of an instruction that needs to know only what there is to refer to. -/
def Instr.plainType? (c : Context) : Instr → Option FuncType
  | .nop => some ⟨[], []⟩
  | .call f => c.function? f
  | .callIndirect type table => indirectType? c type table
  | .callRef type => referenceType? c type
  | .selectTyped [t] => (c.types.val? t).map fun t ↦ ⟨[t, t, .i32], [t]⟩
  | .localGet i => c.locals[i]?.map fun t ↦ ⟨[], [t]⟩
  | .localSet i => c.locals[i]?.map fun t ↦ ⟨[t], []⟩
  | .localTee i => c.locals[i]?.map fun t ↦ ⟨[t], [t]⟩
  | .globalGet i => c.globals[i]?.map fun g ↦ ⟨[], [g.value]⟩
  | .globalSet i => do
    let g ← c.globals[i]?
    guard g.isMutable
    return ⟨[g.value], []⟩
  | .tableGet i => c.tables[i]?.map fun t ↦ ⟨[t.limits.addressType], [.ref t.element]⟩
  | .tableSet i => c.tables[i]?.map fun t ↦ ⟨[t.limits.addressType, .ref t.element], []⟩
  | .load code m => do
    let (t, width) ← Memory.access? code
    return ⟨[← accessType? c width m], [t]⟩
  | .store code m => do
    let (t, width) ← Memory.access? code
    return ⟨[← accessType? c width m, t], []⟩
  | .memorySize m => c.memories[m]?.map fun t ↦ ⟨[], [t.limits.addressType]⟩
  | .memoryGrow m =>
    c.memories[m]?.map fun t ↦ ⟨[t.limits.addressType], [t.limits.addressType]⟩
  | .i32Const _ => some ⟨[], [.i32]⟩
  | .i64Const _ => some ⟨[], [.i64]⟩
  | .f32Const _ => some ⟨[], [.f32]⟩
  | .f64Const _ => some ⟨[], [.f64]⟩
  | .numeric code => Numeric.type? code
  | .saturate code => Numeric.saturateType? code
  | .refNull t => (c.types.heap? t).map fun t ↦ ⟨[], [.ref ⟨true, t⟩]⟩
  | .refFunc f => do
    guard (c.referable.contains f)
    return ⟨[], [← c.refTo? false (← c.functions[f]?)]⟩
  | .refEq => some ⟨[.ref (.orNull .eq), .ref (.orNull .eq)], [.i32]⟩
  | .refTest target => (castType? c target).map fun (source, _) ↦ ⟨[source], [.i32]⟩
  | .refCast target => (castType? c target).map fun (source, t) ↦ ⟨[source], [t]⟩
  | .refI31 => some ⟨[.i32], [.ref (.nonNull .i31)]⟩
  | .i31Get _ => some ⟨[.ref (.orNull .i31)], [.i32]⟩
  | .memoryInit data m => do
    let t ← c.memories[m]?
    guard (c.hasData data)
    return ⟨[t.limits.addressType, .i32, .i32], []⟩
  | .dataDrop data => do
    guard (c.hasData data)
    return ⟨[], []⟩
  | .memoryCopy target source => do
    let t ← c.memories[target]?
    let s ← c.memories[source]?
    return ⟨[t.limits.addressType, s.limits.addressType, commonAddress t.limits s.limits], []⟩
  | .memoryFill m =>
    c.memories[m]?.map fun t ↦ ⟨[t.limits.addressType, .i32, t.limits.addressType], []⟩
  | .tableInit element table => do
    let t ← c.tables[table]?
    guard (c.suppliesElements element (.value (.ref t.element)))
    return ⟨[t.limits.addressType, .i32, .i32], []⟩
  | .elementDrop element => c.elements[element]?.map fun _ ↦ ⟨[], []⟩
  | .tableCopy target source => do
    let t ← c.tables[target]?
    let s ← c.tables[source]?
    guard (c.types.refMatches s.element t.element)
    return ⟨[t.limits.addressType, s.limits.addressType, commonAddress t.limits s.limits], []⟩
  | .tableGrow table =>
    c.tables[table]?.map fun t ↦ ⟨[.ref t.element, t.limits.addressType], [t.limits.addressType]⟩
  | .tableSize table => c.tables[table]?.map fun t ↦ ⟨[], [t.limits.addressType]⟩
  | .tableFill table =>
    c.tables[table]?.map fun t ↦
      ⟨[t.limits.addressType, .ref t.element, t.limits.addressType], []⟩
  | .aggregate i => i.signature? c
  | .vector i => i.signature? c
  | .atomic code m => do
    let a ← Atomic.access? code
    return a.type (← atomicType? c a.width m)
  | .atomicFence => some ⟨[], []⟩
  | _ => none

/-! ## Branches -/

/-- The targets of a table of branches take equally many values, and all can be reached with what is
on the stack. -/
def brTableChecks (space : TypeSpace) (labels : List (List ValType)) (depths : List Nat)
    (last : List ValType) (s : Operands) : Bool :=
  depths.all fun d ↦
    match labels[d]? with
    | some ts => ts.length = last.length && (s.pop space ts).isSome
    | none => false

/-- Whether a label takes what a handler of exceptions passes on. -/
def Catch.isValid (c : Context) (labels : List (List ValType)) : Catch → Bool
  | .tagged tag label withReference =>
    match c.tags[tag]?, labels[label]? with
    | some carried, some ts =>
      c.types.allMatch (carried ++ if withReference then [.ref (.nonNull .exn)] else []) ts
    | _, _ => false
  | .all label withReference =>
    match labels[label]? with
    | some ts => c.types.allMatch (if withReference then [.ref (.nonNull .exn)] else []) ts
    | none => false

/-- The types of a label but the last one, which is a reference that null is added to. -/
def splitLabel? (ts : List ValType) : Option (List ValType × ValType) :=
  match ts.getLast? with
  | some (.ref t) => some (ts.dropLast, .ref { t with nullable := true })
  | _ => none

/-- What is left of a reference type when a cast to another has failed. -/
def RefType.without (source target : RefType) : RefType :=
  ⟨source.nullable && !target.nullable, source.heap⟩

/-- A branch on a cast: the label ends with the type of what is passed on, and what falls through is
the rest. -/
def checkBrOnCast (c : Context) (labels : List (List ValType)) (s : Operands) (fails : Bool)
    (depth : Nat) (source target : RefType) : Option Operands := do
  let source ← c.types.ref? source
  let target ← c.types.ref? target
  guard (c.types.refMatches target source)
  let ts ← labels[depth]?
  let last ← ts.getLast?
  let rest := source.without target
  let (passed, kept) := if fails then (rest, target) else (target, rest)
  guard (c.types.valMatches (.ref passed) last)
  let s ← s.popOne c.types (.ref source)
  let s ← s.pop c.types ts.dropLast
  return (s.push ts.dropLast).push [.ref kept]

/-! ## Instructions -/

/-- The type that both operands of an untyped selection have; it cannot be a reference. -/
def selectType (space : TypeSpace) (s : Operands) : Option Operands := do
  let s ← s.popOne space .i32
  let (a, s) ← s.popAny
  let (b, s) ← s.popAny
  match a, b with
  | .any, .any => return s.pushOne .any
  | .any, .known t | .known t, .any =>
    guard (!t.isReference)
    return s.push [t]
  | .known t, .known u =>
    guard (!t.isReference && t = u)
    return s.push [t]
  | _, _ => none

/-- A call that takes the place of the function that it is in. -/
def checkTailCall (c : Context) (s : Operands) (t : FuncType) : Option Operands := do
  guard (c.types.allMatch t.results c.results)
  let _ ← s.pop c.types t.params
  return .afterJump

mutual

/-- The stack behind an instruction. -/
def checkInstr (c : Context) (labels : List (List ValType)) (s : Operands) : Instr → Option Operands
  | .block type body => do
    let t ← type.signature? c.types
    let s ← s.pop c.types t.params
    let inner ← checkInstrs c (t.results :: labels) (.push .empty t.params) body
    guard (inner.isExactly c.types t.results)
    return s.push t.results
  | .loop type body => do
    let t ← type.signature? c.types
    let s ← s.pop c.types t.params
    let inner ← checkInstrs c (t.params :: labels) (.push .empty t.params) body
    guard (inner.isExactly c.types t.results)
    return s.push t.results
  | .ifThen type yes => do
    let t ← type.signature? c.types
    guard (c.types.allMatch t.params t.results)
    let s ← s.popOne c.types .i32
    let s ← s.pop c.types t.params
    let inner ← checkInstrs c (t.results :: labels) (.push .empty t.params) yes
    guard (inner.isExactly c.types t.results)
    return s.push t.results
  | .ifElse type yes no => do
    let t ← type.signature? c.types
    let s ← s.popOne c.types .i32
    let s ← s.pop c.types t.params
    let left ← checkInstrs c (t.results :: labels) (.push .empty t.params) yes
    guard (left.isExactly c.types t.results)
    let right ← checkInstrs c (t.results :: labels) (.push .empty t.params) no
    guard (right.isExactly c.types t.results)
    return s.push t.results
  | .tryTable type catches body => do
    let t ← type.signature? c.types
    let s ← s.pop c.types t.params
    guard (catches.all (Catch.isValid c labels))
    let inner ← checkInstrs c (t.results :: labels) (.push .empty t.params) body
    guard (inner.isExactly c.types t.results)
    return s.push t.results
  | .throw tag => do
    let _ ← s.pop c.types (← c.tags[tag]?)
    return .afterJump
  | .throwRef => do
    let _ ← s.popOne c.types (.ref (.orNull .exn))
    return .afterJump
  | .br depth => do
    let _ ← s.pop c.types (← labels[depth]?)
    return .afterJump
  | .brIf depth => do
    let ts ← labels[depth]?
    let s ← s.popOne c.types .i32
    return (← s.pop c.types ts).push ts
  | .brTable depths last => do
    let ts ← labels[last]?
    let s ← s.popOne c.types .i32
    guard (brTableChecks c.types labels depths ts s)
    let _ ← s.pop c.types ts
    return .afterJump
  | .brOnNull depth => do
    let (o, s) ← s.popReference
    let ts ← labels[depth]?
    return ((← s.pop c.types ts).push ts).pushOne o.nonNull
  | .brOnNonNull depth => do
    let (ts, last) ← splitLabel? (← labels[depth]?)
    let s ← s.popOne c.types last
    return (← s.pop c.types ts).push ts
  | .brOnCast fails depth source target => checkBrOnCast c labels s fails depth source target
  | .ret => do
    let _ ← s.pop c.types c.results
    return .afterJump
  | .returnCall f => do checkTailCall c s (← c.function? f)
  | .returnCallIndirect type table => do checkTailCall c s (← indirectType? c type table)
  | .returnCallRef type => do checkTailCall c s (← referenceType? c type)
  | .unreachable => some .afterJump
  | .drop => s.popAny.map (·.2)
  | .select => selectType c.types s
  | .refIsNull => do return (← s.popReference).2.push [.i32]
  | .refAsNonNull => do
    let (o, s) ← s.popReference
    return s.pushOne o.nonNull
  | .anyOfExtern => do
    let (o, _) ← s.popReference
    return (← s.popOne c.types (.ref (.orNull .external))).pushOne (o.converted .any)
  | .externOfAny => do
    let (o, _) ← s.popReference
    return (← s.popOne c.types (.ref (.orNull .any))).pushOne (o.converted .external)
  | .aggregate (.arrayNewFixed type count) => do
    let f ← c.types.array? type
    let s ← s.popMany c.types f.storage.unpacked count
    return s.push [← c.refTo? false type]
  | i => do s.apply c.types (← i.plainType? c)

/-- The stack behind a list of instructions. -/
def checkInstrs (c : Context) (labels : List (List ValType)) (s : Operands) :
    List Instr → Option Operands
  | [] => some s
  | i :: rest => (checkInstr c labels s i).bind fun s ↦ checkInstrs c labels s rest

end

/-- Whether a function body leaves exactly the results of its function. -/
def checkBody (c : Context) (body : List Instr) : Bool :=
  match checkInstrs c [c.results] .empty body with
  | some s => s.isExactly c.types c.results
  | none => false

end ScriptWasm.Wasm
