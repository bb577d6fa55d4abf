import ScriptWasm.Number.Binary64
import ScriptWasm.Wasm.Types

/-!
# Instructions

Code is a tree: the body of a block belongs to the block, so it is closed wherever it is opened, and
a branch names its target by the number of blocks in between.

Instructions whose effect on the operand stack is fixed by their opcode are not told apart further:
`numeric`, `vector` and their like carry the opcode, and the tables in `Opcode` give its signature.
-/

namespace ScriptWasm.Wasm

/-- How a memory is accessed: the binary logarithm of the alignment, the offset, the memory. -/
structure MemArg where
  align : Nat
  offset : Nat
  memory : Nat
deriving DecidableEq, Repr

/-- How the low bits of a word are extended to the whole of it. -/
inductive Extension where
  | signed
  | unsigned
deriving DecidableEq, Repr

/-- Which exceptions a block catches, and the label that gets them. With a reference, the exception
itself is passed on too. -/
inductive Catch where
  | tagged (tag label : Nat) (withReference : Bool)
  | all (label : Nat) (withReference : Bool)
deriving DecidableEq, Repr

/-- Instructions on structures and arrays. Types are given by their indices. -/
inductive Aggregate where
  | structNew (type : Nat)
  | structNewDefault (type : Nat)
  | structGet (type field : Nat) (extension? : Option Extension)
  | structSet (type field : Nat)
  | arrayNew (type : Nat)
  | arrayNewDefault (type : Nat)
  | arrayNewFixed (type count : Nat)
  | arrayNewData (type data : Nat)
  | arrayNewElement (type element : Nat)
  | arrayGet (type : Nat) (extension? : Option Extension)
  | arraySet (type : Nat)
  | arrayLength
  | arrayFill (type : Nat)
  | arrayCopy (target source : Nat)
  | arrayInitData (type data : Nat)
  | arrayInitElement (type element : Nat)
deriving DecidableEq, Repr

/-- Instructions on vectors, by one of the codes behind `0xfd`. -/
inductive Vector where
  | plain (code : Nat)
  | const (bytes : List UInt8)
  | shuffle (lanes : List UInt8)
  /-- Takes a lane out, or puts one in. -/
  | lane (code : Nat) (lane : UInt8)
  /-- Reads from memory or writes to it. -/
  | access (code : Nat) (arg : MemArg)
  /-- Reads one lane from memory or writes it there. -/
  | laneAccess (code : Nat) (arg : MemArg) (lane : UInt8)
deriving DecidableEq, Repr

inductive Instr where
  | unreachable
  | nop
  | block (type : BlockType) (body : List Instr)
  | loop (type : BlockType) (body : List Instr)
  | ifThen (type : BlockType) (yes : List Instr)
  | ifElse (type : BlockType) (yes no : List Instr)
  | tryTable (type : BlockType) (catches : List Catch) (body : List Instr)
  | throw (tag : Nat)
  | throwRef
  | br (depth : Nat)
  | brIf (depth : Nat)
  | brTable (depths : List Nat) (default : Nat)
  | brOnNull (depth : Nat)
  | brOnNonNull (depth : Nat)
  /-- Branches if a cast of the given reference would succeed, or if it would fail. -/
  | brOnCast (fails : Bool) (depth : Nat) (source target : RefType)
  | ret
  | call (function : Nat)
  | callIndirect (type table : Nat)
  | callRef (type : Nat)
  | returnCall (function : Nat)
  | returnCallIndirect (type table : Nat)
  | returnCallRef (type : Nat)
  | drop
  | select
  | selectTyped (types : List ValType)
  | localGet (index : Nat)
  | localSet (index : Nat)
  | localTee (index : Nat)
  | globalGet (index : Nat)
  | globalSet (index : Nat)
  | tableGet (table : Nat)
  | tableSet (table : Nat)
  /-- Reads from memory, by one of the opcodes from `0x28` to `0x35`. -/
  | load (code : UInt8) (arg : MemArg)
  /-- Writes to memory, by one of the opcodes from `0x36` to `0x3e`. -/
  | store (code : UInt8) (arg : MemArg)
  | memorySize (memory : Nat)
  | memoryGrow (memory : Nat)
  | i32Const (value : UInt32)
  | i64Const (value : UInt64)
  | f32Const (bits : UInt32)
  | f64Const (value : Binary64)
  /-- Comparisons, arithmetic and conversions, by one of the opcodes from `0x45` to `0xc4`. -/
  | numeric (code : UInt8)
  /-- Conversions that saturate, by one of the codes up to 7 behind `0xfc`. -/
  | saturate (code : Nat)
  | refNull (type : HeapType)
  | refIsNull
  | refFunc (function : Nat)
  | refEq
  | refAsNonNull
  | refTest (target : RefType)
  | refCast (target : RefType)
  | refI31
  | i31Get (extension : Extension)
  | anyOfExtern
  | externOfAny
  | memoryInit (data memory : Nat)
  | dataDrop (data : Nat)
  | memoryCopy (target source : Nat)
  | memoryFill (memory : Nat)
  | tableInit (element table : Nat)
  | elementDrop (element : Nat)
  | tableCopy (target source : Nat)
  | tableGrow (table : Nat)
  | tableSize (table : Nat)
  | tableFill (table : Nat)
  | aggregate (instr : Aggregate)
  | vector (instr : Vector)
  /-- Accesses memory in one step, by one of the codes behind `0xfe`. -/
  | atomic (code : Nat) (arg : MemArg)
  | atomicFence
deriving Repr, Inhabited

/-- Whether a word is zero. -/
@[match_pattern] abbrev Instr.i32Eqz : Instr := .numeric 0x45

end ScriptWasm.Wasm
