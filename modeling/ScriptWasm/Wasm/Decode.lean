import ScriptWasm.Wasm.Opcode
import ScriptWasm.Wasm.Take

/-!
# Reading modules

The contents of a section have to be used up by what is read from them. Whether what is read makes
sense together is a matter of validity.
-/

namespace ScriptWasm.Wasm

namespace Take

/-! ## Instructions -/

/-- The seventh bit of the alignment announces that the memory is named. -/
def memArg : Take MemArg := do
  let flags ← word
  guard (flags < 128)
  if flags < 64 then return ⟨flags, ← wideWord, 0⟩
  else
    let memory ← word
    return ⟨flags - 64, ← wideWord, memory⟩

/-- An instruction of the extended table, behind its first byte. -/
def extended : Take Instr := do
  let code ← word
  match code with
  | 8 => return .memoryInit (← word) (← word)
  | 9 => return .dataDrop (← word)
  | 10 => return .memoryCopy (← word) (← word)
  | 11 => return .memoryFill (← word)
  | 12 => return .tableInit (← word) (← word)
  | 13 => return .elementDrop (← word)
  | 14 => return .tableCopy (← word) (← word)
  | 15 => return .tableGrow (← word)
  | 16 => return .tableSize (← word)
  | 17 => return .tableFill (← word)
  | _ =>
    guard (Numeric.saturateType? code).isSome
    return .saturate code

/-- A branch on a cast, behind its code. -/
def brOnCast (fails : Bool) : Take Instr := do
  let flags ← byte
  guard (flags < 4)
  let depth ← word
  let source ← heapType
  let target ← heapType
  return .brOnCast fails depth ⟨flags % 2 = 1, source⟩ ⟨flags / 2 = 1, target⟩

/-- An instruction on references, structures or arrays, behind its first byte. -/
def managed : Take Instr := do
  match ← word with
  | 0x00 => return .aggregate (.structNew (← word))
  | 0x01 => return .aggregate (.structNewDefault (← word))
  | 0x02 => return .aggregate (.structGet (← word) (← word) none)
  | 0x03 => return .aggregate (.structGet (← word) (← word) (some .signed))
  | 0x04 => return .aggregate (.structGet (← word) (← word) (some .unsigned))
  | 0x05 => return .aggregate (.structSet (← word) (← word))
  | 0x06 => return .aggregate (.arrayNew (← word))
  | 0x07 => return .aggregate (.arrayNewDefault (← word))
  | 0x08 => return .aggregate (.arrayNewFixed (← word) (← word))
  | 0x09 => return .aggregate (.arrayNewData (← word) (← word))
  | 0x0a => return .aggregate (.arrayNewElement (← word) (← word))
  | 0x0b => return .aggregate (.arrayGet (← word) none)
  | 0x0c => return .aggregate (.arrayGet (← word) (some .signed))
  | 0x0d => return .aggregate (.arrayGet (← word) (some .unsigned))
  | 0x0e => return .aggregate (.arraySet (← word))
  | 0x0f => return .aggregate .arrayLength
  | 0x10 => return .aggregate (.arrayFill (← word))
  | 0x11 => return .aggregate (.arrayCopy (← word) (← word))
  | 0x12 => return .aggregate (.arrayInitData (← word) (← word))
  | 0x13 => return .aggregate (.arrayInitElement (← word) (← word))
  | 0x14 => return .refTest ⟨false, ← heapType⟩
  | 0x15 => return .refTest ⟨true, ← heapType⟩
  | 0x16 => return .refCast ⟨false, ← heapType⟩
  | 0x17 => return .refCast ⟨true, ← heapType⟩
  | 0x18 => brOnCast false
  | 0x19 => brOnCast true
  | 0x1a => return .anyOfExtern
  | 0x1b => return .externOfAny
  | 0x1c => return .refI31
  | 0x1d => return .i31Get .signed
  | 0x1e => return .i31Get .unsigned
  | _ => failure

/-- The number of a lane, of which there are so many. -/
def lane (count : Nat) : Take UInt8 := do
  let n ← byte
  guard (n.toNat < count)
  return n

/-- An instruction on vectors, behind its first byte. -/
def vector : Take Vector := do
  let code ← word
  if code = 0x0c then return .const (← bytes 16)
  else if code = 0x0d then return .shuffle (← times (lane 32) 16 [])
  else if (Vector.type? code).isSome then return .plain code
  else
    match Vector.lane? code, Vector.access? code, Vector.laneAccess? code with
    | some (count, _), _, _ => return .lane code (← lane count)
    | none, some _, _ => return .access code (← memArg)
    | none, none, some a =>
      let m ← memArg
      return .laneAccess code m (← lane (Nat.pow 2 (4 - a.width)))
    | none, none, none => failure

/-- An instruction that is carried out in one step, behind its first byte. -/
def atomic : Take Instr := do
  let code ← word
  if code = 3 then
    guard ((← byte) = 0)
    return .atomicFence
  else
    guard (Atomic.access? code).isSome
    return .atomic code (← memArg)

/-- An instruction without a body, behind its opcode. -/
def plainInstr (code : UInt8) : Take Instr := do
  match code with
  | 0x00 => return .unreachable
  | 0x01 => return .nop
  | 0x08 => return .throw (← word)
  | 0x0a => return .throwRef
  | 0x0c => return .br (← word)
  | 0x0d => return .brIf (← word)
  | 0x0e => return .brTable (← vec word) (← word)
  | 0x0f => return .ret
  | 0x10 => return .call (← word)
  | 0x11 => return .callIndirect (← word) (← word)
  | 0x12 => return .returnCall (← word)
  | 0x13 => return .returnCallIndirect (← word) (← word)
  | 0x14 => return .callRef (← word)
  | 0x15 => return .returnCallRef (← word)
  | 0x1a => return .drop
  | 0x1b => return .select
  | 0x1c => return .selectTyped (← vec valType)
  | 0x20 => return .localGet (← word)
  | 0x21 => return .localSet (← word)
  | 0x22 => return .localTee (← word)
  | 0x23 => return .globalGet (← word)
  | 0x24 => return .globalSet (← word)
  | 0x25 => return .tableGet (← word)
  | 0x26 => return .tableSet (← word)
  | 0x3f => return .memorySize (← word)
  | 0x40 => return .memoryGrow (← word)
  | 0x41 => return .i32Const (UInt32.ofInt (← signed 32))
  | 0x42 => return .i64Const (UInt64.ofInt (← signed 64))
  | 0x43 => return .f32Const (UInt32.ofNat (← littleEndian 4))
  | 0x44 => return .f64Const ⟨UInt64.ofNat (← littleEndian 8)⟩
  | 0xd0 => return .refNull (← heapType)
  | 0xd1 => return .refIsNull
  | 0xd2 => return .refFunc (← word)
  | 0xd3 => return .refEq
  | 0xd4 => return .refAsNonNull
  | 0xd5 => return .brOnNull (← word)
  | 0xd6 => return .brOnNonNull (← word)
  | 0xfb => managed
  | 0xfc => extended
  | 0xfd => return .vector (← vector)
  | 0xfe => atomic
  | _ =>
    if 0x28 ≤ code && code ≤ 0x35 then return .load code (← memArg)
    else if 0x36 ≤ code && code ≤ 0x3e then return .store code (← memArg)
    else
      guard (Numeric.type? code).isSome
      return .numeric code

def catchClause : Take Catch := do
  match ← byte with
  | 0x00 => return .tagged (← word) (← word) false
  | 0x01 => return .tagged (← word) (← word) true
  | 0x02 => return .all (← word) false
  | 0x03 => return .all (← word) true
  | _ => failure

/-- The beginnings of instructions with a body. -/
inductive Opening where
  | block (type : BlockType)
  | loop (type : BlockType)
  | choice (type : BlockType)
  | tryTable (type : BlockType) (catches : List Catch)

/-- The instruction with a given body. -/
def Opening.instr (body : List Instr) : Opening → Instr
  | .block type => .block type body
  | .loop type => .loop type body
  | .choice type => .ifThen type body
  | .tryTable type catches => .tryTable type catches body

/-- The beginning of an instruction, behind its opcode; `none` if it has no body. -/
def opening (code : UInt8) : Take (Option Opening) := do
  match code with
  | 0x02 => return some (.block (← blockType))
  | 0x03 => return some (.loop (← blockType))
  | 0x04 => return some (.choice (← blockType))
  | 0x1f => return some (.tryTable (← blockType) (← vec catchClause))
  | _ => return none

/-- Instructions up to the end of their block, and whether the block goes on with an alternative.
Every step reads a byte, so a number of bytes bounds the steps. -/
def instrs : Nat → List Instr → Take (List Instr × Bool)
  | 0, _, _ => none
  | steps + 1, done, bs =>
    match bs with
    | [] => none
    | code :: bs =>
      if code = 0x0b then some ((done.reverse, false), bs)
      else if code = 0x05 then some ((done.reverse, true), bs)
      else
        match opening code bs with
        | none => none
        | some (none, bs) =>
          match plainInstr code bs with
          | none => none
          | some (i, bs) => instrs steps (i :: done) bs
        | some (some start, bs) =>
          match instrs steps [] bs with
          | none => none
          | some ((body, false), bs) => instrs steps (start.instr body :: done) bs
          | some ((yes, true), bs) =>
            match start with
            | .choice type =>
              match instrs steps [] bs with
              | some ((no, false), bs) => instrs steps (.ifElse type yes no :: done) bs
              | _ => none
            | _ => none

/-- Instructions that stand alone. -/
def expr : Take (List Instr) := fun bs ↦
  match instrs bs.length [] bs with
  | some ((body, false), bs) => some (body, bs)
  | _ => none

/-! ## Parts of sections -/

def externKind : Take ExternKind := do
  match ← byte with
  | 0 => return .function
  | 1 => return .table
  | 2 => return .memory
  | 3 => return .global
  | 4 => return .tag
  | _ => failure

/-- Tags mark exceptions only. -/
def tagType : Take Nat := do
  guard ((← byte) = 0)
  word

def externType : Take ExternType := do
  match ← externKind with
  | .function => return .function (← word)
  | .table => return .table (← tableType)
  | .memory => return .memory (← memoryType)
  | .global => return .global (← globalType)
  | .tag => return .tag (← tagType)

def importEntry : Take Import := do return ⟨← name, ← name, ← externType⟩

def exportEntry : Take Export := do return ⟨← name, ← externKind, ← word⟩

def table : Take Table := do
  if (← ahead) = 0x40 then
    guard ((← bytes 2) = [0x40, 0x00])
    return ⟨← tableType, some (← expr)⟩
  else return ⟨← tableType, none⟩

def global : Take Global := do return ⟨← globalType, ← expr⟩

/-- The items of an element segment that are functions. -/
def functionItems : Take ElementItems := do
  guard ((← byte) = 0)
  return .functions (← vec word)

/-- The items of an element segment that are expressions. -/
def expressionItems : Take ElementItems := do return .expressions (← refType) (← vec expr)

def element : Take Element := do
  match ← word with
  | 0 =>
    let offset ← expr
    return ⟨.active 0 offset, .functions (← vec word)⟩
  | 1 => return ⟨.passive, ← functionItems⟩
  | 2 =>
    let table ← word
    let offset ← expr
    return ⟨.active table offset, ← functionItems⟩
  | 3 => return ⟨.declared, ← functionItems⟩
  | 4 =>
    let offset ← expr
    return ⟨.active 0 offset, .expressions (.orNull .func) (← vec expr)⟩
  | 5 => return ⟨.passive, ← expressionItems⟩
  | 6 =>
    let table ← word
    let offset ← expr
    return ⟨.active table offset, ← expressionItems⟩
  | 7 => return ⟨.declared, ← expressionItems⟩
  | _ => failure

def data : Take Data := do
  match ← word with
  | 0 =>
    let offset ← expr
    return ⟨.active 0 offset, ← sized⟩
  | 1 => return ⟨.passive, ← sized⟩
  | 2 =>
    let memory ← word
    let offset ← expr
    return ⟨.active memory offset, ← sized⟩
  | _ => failure

def localGroup : Take (Nat × ValType) := do return (← word, ← valType)

/-- A function body fills its size exactly. -/
def code : Take Code := do
  let contents ← sized
  match whole (do return Code.mk (← vec localGroup) (← expr)) contents with
  | some c => return c
  | none => failure

/-- What follows the name of a custom section is up to whoever knows the name. -/
def custom : Take (String × Bytes) := fun bs ↦ (name bs).map fun (n, rest) ↦ ((n, rest), [])

end Take

/-! ## Sections -/

/-- The section with a number and the given contents. -/
def Section.decode? (id : UInt8) (contents : Bytes) : Option Section :=
  let list {α : Type} (read : Take α) (make : List α → Section) : Option Section :=
    (Take.whole (Take.vec read) contents).map make
  match id with
  | 0 => (Take.whole Take.custom contents).map fun (name, contents) ↦ .custom name contents
  | 1 => list Take.typeGroup .types
  | 2 => list Take.importEntry .imports
  | 3 => list Take.word .functions
  | 4 => list Take.table .tables
  | 5 => list Take.memoryType .memories
  | 6 => list Take.global .globals
  | 7 => list Take.exportEntry .exports
  | 8 => (Take.whole Take.word contents).map .start
  | 9 => list Take.element .elements
  | 10 => list Take.code .code
  | 11 => list Take.data .data
  | 12 => (Take.whole Take.word contents).map .dataCount
  | 13 => list Take.tagType .tags
  | _ => none

end ScriptWasm.Wasm
