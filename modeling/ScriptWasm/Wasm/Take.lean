import ScriptWasm.Wasm.Leb128
import ScriptWasm.Wasm.Section

/-!
# Reading from bytes

Readers take the bytes that are left and give a value and the bytes that are then left. Why reading
fails is not recorded: to whom bytes are not a module, they are not a module.
-/

namespace ScriptWasm.Wasm

/-- A reader of part of a module. -/
abbrev Take (α : Type) := StateT Bytes Option α

namespace Take

def byte : Take UInt8
  | [] => none
  | b :: rest => some (b, rest)

/-- The next byte, which is left there. -/
def ahead : Take UInt8
  | [] => none
  | b :: rest => some (b, b :: rest)

/-- A natural number of at most 32 bits: a size, a count or an index. -/
def word : Take Nat := Leb128.readUnsigned 32

/-- A natural number of at most 64 bits. -/
def wideWord : Take Nat := Leb128.readUnsigned 64

def signed (width : Nat) : Take Int := Leb128.readSigned width

/-- Exactly `n` bytes. -/
def bytes (n : Nat) : Take Bytes := fun bs ↦
  let front := bs.take n
  if front.length < n then none else some (front, bs.drop n)

/-- The number written in little-endian bytes. -/
def littleEndian (count : Nat) : Take Nat := do
  return (← bytes count).foldr (fun b n ↦ n * 256 + b.toNat) 0

/-- Repeats a reader; `done` is what it gave so far, in reverse. -/
def times {α : Type} (read : Take α) : Nat → List α → Take (List α)
  | 0, done, bs => some (done.reverse, bs)
  | n + 1, done, bs =>
    match read bs with
    | none => none
    | some (a, rest) => times read n (a :: done) rest

/-- A count, and as many things. -/
def vec {α : Type} (read : Take α) : Take (List α) := do times read (← word) []

/-- Bytes behind their number. -/
def sized : Take Bytes := do bytes (← word)

def name : Take String := do
  let n ← word
  guard (n ≤ longestName)
  textOf? (← bytes n)

/-- The value of a reader that has to use up the bytes. -/
def whole {α : Type} (read : Take α) (bs : Bytes) : Option α :=
  match read bs with
  | some (a, []) => some a
  | _ => none

/-! ## Types -/

/-- An index that is written as a signed number, so that it cannot be taken for a type. -/
def signedIndex : Take Nat := do
  let n ← signed 33
  guard (0 ≤ n)
  return n.toNat

def heapType : Take HeapType := do
  match HeapKind.ofByte? (← ahead) with
  | some k =>
    let _ ← byte
    return .kind k
  | none => return .index (← signedIndex)

/-- A heap type on its own means that null is allowed. -/
def refType : Take RefType := do
  match ← ahead with
  | 0x63 =>
    let _ ← byte
    return ⟨true, ← heapType⟩
  | 0x64 =>
    let _ ← byte
    return ⟨false, ← heapType⟩
  | _ => return ⟨true, ← heapType⟩

/-- The type of numbers or vectors that a byte stands for. -/
def plainType? : UInt8 → Option ValType
  | 0x7f => some .i32
  | 0x7e => some .i64
  | 0x7d => some .f32
  | 0x7c => some .f64
  | 0x7b => some .v128
  | _ => none

def valType : Take ValType := do
  match plainType? (← ahead) with
  | some t =>
    let _ ← byte
    return t
  | none => return .ref (← refType)

def funcType : Take FuncType := do
  let params ← vec valType
  let results ← vec valType
  return ⟨params, results⟩

def mutability : Take Bool := do
  let b ← byte
  guard (b ≤ 1)
  return b = 1

def storageType : Take StorageType := do
  match ← ahead with
  | 0x78 =>
    let _ ← byte
    return .i8
  | 0x77 =>
    let _ ← byte
    return .i16
  | _ => return .value (← valType)

def fieldType : Take FieldType := do return ⟨← storageType, ← mutability⟩

/-- A type behind the byte that tells its form. -/
def compositeType (form : UInt8) : Take CompositeType := do
  match form with
  | 0x60 => return .func (← funcType)
  | 0x5e => return .array (← fieldType)
  | 0x5f => return .struct (← vec fieldType)
  | _ => failure

/-- A type may be below one other. -/
def subType : Take SubType := do
  let form ← byte
  if form = 0x4f ∨ form = 0x50 then
    let supers ← vec word
    guard (supers.length ≤ 1)
    return ⟨form = 0x4f, supers.head?, ← compositeType (← byte)⟩
  else return ⟨true, none, ← compositeType form⟩

def typeGroup : Take TypeGroup := do
  if (← ahead) = 0x4e then
    let _ ← byte
    vec subType
  else return [← subType]

/-- Limits behind their flags. -/
def limits (isBounded isWide : Bool) : Take Limits := do
  let size : Take Nat := if isWide then wideWord else word
  let min ← size
  if isBounded then return ⟨min, some (← size), isWide⟩ else return ⟨min, none, isWide⟩

/-- Flags of three bits: there is an upper limit, the thing is shared, it is wide. -/
def limitFlags : Take (Bool × Bool × Bool) := do
  let flags ← byte
  guard (flags < 8)
  return (flags % 2 = 1, flags / 2 % 2 = 1, flags / 4 = 1)

/-- Tables cannot be shared. -/
def tableType : Take TableType := do
  let element ← refType
  let (isBounded, isShared, isWide) ← limitFlags
  guard (!isShared)
  return ⟨element, ← limits isBounded isWide⟩

def memoryType : Take MemoryType := do
  let (isBounded, isShared, isWide) ← limitFlags
  return ⟨← limits isBounded isWide, isShared⟩

def globalType : Take GlobalType := do return ⟨← valType, ← mutability⟩

/-- A byte of its own stands for no type; other bytes that would be negative numbers start a value
type. -/
def blockType : Take BlockType := do
  let b ← ahead
  if b = 0x40 then
    let _ ← byte
    return .empty
  else if 0x40 ≤ b ∧ b < 0x80 then return .value (← valType)
  else return .signature (← signedIndex)

end Take

end ScriptWasm.Wasm
