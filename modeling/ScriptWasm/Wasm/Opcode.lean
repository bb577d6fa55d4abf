import ScriptWasm.Wasm.Types

/-!
# Signatures of opcodes

Most opcodes have a fixed effect on the operand stack. Neighbouring opcodes often have the same one,
so the tables list runs of opcodes: the last opcode of a run, and what holds for all of it.
-/

namespace ScriptWasm.Wasm

/-- The entry of the first run that does not end before a code. -/
def lookUpRun {α : Type} (runs : List (Nat × α)) (code : Nat) : Option α :=
  (runs.find? (code ≤ ·.1)).map (·.2)

/-! ## Numbers -/

namespace Numeric

/-- The opcodes from `0x45` on. -/
def runs : List (Nat × FuncType) :=
  [(0x45, ⟨[.i32], [.i32]⟩), (0x4f, ⟨[.i32, .i32], [.i32]⟩), (0x50, ⟨[.i64], [.i32]⟩),
    (0x5a, ⟨[.i64, .i64], [.i32]⟩), (0x60, ⟨[.f32, .f32], [.i32]⟩),
    (0x66, ⟨[.f64, .f64], [.i32]⟩), (0x69, ⟨[.i32], [.i32]⟩), (0x78, ⟨[.i32, .i32], [.i32]⟩),
    (0x7b, ⟨[.i64], [.i64]⟩), (0x8a, ⟨[.i64, .i64], [.i64]⟩), (0x91, ⟨[.f32], [.f32]⟩),
    (0x98, ⟨[.f32, .f32], [.f32]⟩), (0x9f, ⟨[.f64], [.f64]⟩), (0xa6, ⟨[.f64, .f64], [.f64]⟩),
    (0xa7, ⟨[.i64], [.i32]⟩), (0xa9, ⟨[.f32], [.i32]⟩), (0xab, ⟨[.f64], [.i32]⟩),
    (0xad, ⟨[.i32], [.i64]⟩), (0xaf, ⟨[.f32], [.i64]⟩), (0xb1, ⟨[.f64], [.i64]⟩),
    (0xb3, ⟨[.i32], [.f32]⟩), (0xb5, ⟨[.i64], [.f32]⟩), (0xb6, ⟨[.f64], [.f32]⟩),
    (0xb8, ⟨[.i32], [.f64]⟩), (0xba, ⟨[.i64], [.f64]⟩), (0xbb, ⟨[.f32], [.f64]⟩),
    (0xbc, ⟨[.f32], [.i32]⟩), (0xbd, ⟨[.f64], [.i64]⟩), (0xbe, ⟨[.i32], [.f32]⟩),
    (0xbf, ⟨[.i64], [.f64]⟩), (0xc1, ⟨[.i32], [.i32]⟩), (0xc4, ⟨[.i64], [.i64]⟩)]

/-- The signature of an opcode. -/
def type? (code : UInt8) : Option FuncType :=
  if code < 0x45 then none else lookUpRun runs code.toNat

/-- The signature of a conversion that saturates. -/
def saturateType? (code : Nat) : Option FuncType :=
  lookUpRun [(1, ⟨[.f32], [.i32]⟩), (3, ⟨[.f64], [.i32]⟩), (5, ⟨[.f32], [.i64]⟩),
    (7, ⟨[.f64], [.i64]⟩)] code

end Numeric

/-! ## Memory -/

namespace Memory

/-- The type that a reading or writing opcode moves, and the binary logarithm of its width in bytes.
-/
def access? (code : UInt8) : Option (ValType × Nat) :=
  [(0x28, .i32, 2), (0x29, .i64, 3), (0x2a, .f32, 2), (0x2b, .f64, 3), (0x2c, .i32, 0),
    (0x2d, .i32, 0), (0x2e, .i32, 1), (0x2f, .i32, 1), (0x30, .i64, 0), (0x31, .i64, 0),
    (0x32, .i64, 1), (0x33, .i64, 1), (0x34, .i64, 2), (0x35, .i64, 2), (0x36, .i32, 2),
    (0x37, .i64, 3), (0x38, .f32, 2), (0x39, .f64, 3), (0x3a, .i32, 0), (0x3b, .i32, 1),
    (0x3c, .i64, 0), (0x3d, .i64, 1), (0x3e, .i64, 2)].lookup code

end Memory

/-- What an access to memory does besides popping an address: the binary logarithm of its width in
bytes, what it takes from above the address, and what it gives. -/
structure Access where
  width : Nat
  takes : List ValType
  gives : List ValType
deriving DecidableEq, Repr

namespace Atomic

/-- The seven ways to access a word or a part of it, in the order in which every group of opcodes
goes through them. -/
def parts : List (ValType × Nat) :=
  [(.i32, 2), (.i64, 3), (.i32, 0), (.i32, 1), (.i64, 0), (.i64, 1), (.i64, 2)]

/-- Waiting and waking, then groups of seven opcodes: reading, writing, six ways to read and write,
and exchanging what is as expected. -/
def access? (code : Nat) : Option Access :=
  if code = 0 then some ⟨2, [.i32], [.i32]⟩
  else if code = 1 then some ⟨2, [.i32, .i64], [.i32]⟩
  else if code = 2 then some ⟨3, [.i64, .i64], [.i32]⟩
  else if code < 0x10 then none
  else
    let group := (code - 0x10) / 7
    parts[(code - 0x10) % 7]?.bind fun (t, width) ↦
      if group = 0 then some ⟨width, [], [t]⟩
      else if group = 1 then some ⟨width, [t], []⟩
      else if group ≤ 7 then some ⟨width, [t], [t]⟩
      else if group = 8 then some ⟨width, [t, t], [t]⟩
      else none

end Atomic

/-! ## Vectors -/

namespace Vector

/-- From one vector, two or three to one. -/
def unary : Option FuncType := some ⟨[.v128], [.v128]⟩
def binary : Option FuncType := some ⟨[.v128, .v128], [.v128]⟩
def ternary : Option FuncType := some ⟨[.v128, .v128, .v128], [.v128]⟩
/-- A vector shifted by a number of bits. -/
def shift : Option FuncType := some ⟨[.v128, .i32], [.v128]⟩
/-- A property of a vector. -/
def test : Option FuncType := some ⟨[.v128], [.i32]⟩
/-- A vector with the same number in every lane. -/
def splat (t : ValType) : Option FuncType := some ⟨[t], [.v128]⟩

/-- The opcodes without further parts. Those that are in between have some, or do not exist. -/
def runs : List (Nat × Option FuncType) :=
  [(0x0d, none), (0x0e, binary), (0x11, splat .i32), (0x12, splat .i64), (0x13, splat .f32),
    (0x14, splat .f64), (0x22, none), (0x4c, binary), (0x4d, unary), (0x51, binary),
    (0x52, ternary), (0x53, test), (0x5d, none), (0x62, unary), (0x64, test), (0x66, binary),
    (0x6a, unary), (0x6d, shift), (0x73, binary), (0x75, unary), (0x79, binary), (0x7a, unary),
    (0x7b, binary), (0x81, unary), (0x82, binary), (0x84, test), (0x86, binary), (0x8a, unary),
    (0x8d, shift), (0x93, binary), (0x94, unary), (0x99, binary), (0x9a, none), (0x9f, binary),
    (0xa1, unary), (0xa2, none), (0xa4, test), (0xa6, none), (0xaa, unary), (0xad, shift),
    (0xae, binary), (0xb0, none), (0xb1, binary), (0xb4, none), (0xba, binary), (0xbb, none),
    (0xbf, binary), (0xc1, unary), (0xc2, none), (0xc4, test), (0xc6, none), (0xca, unary),
    (0xcd, shift), (0xce, binary), (0xd0, none), (0xd1, binary), (0xd4, none), (0xdf, binary),
    (0xe1, unary), (0xe2, none), (0xe3, unary), (0xeb, binary), (0xed, unary), (0xee, none),
    (0xef, unary), (0xf7, binary), (0xff, unary), (0x100, binary), (0x104, unary),
    (0x10c, ternary), (0x112, binary), (0x113, ternary)]

/-- The signature of an opcode without further parts. -/
def type? (code : Nat) : Option FuncType := (lookUpRun runs code).join

/-- How many lanes there are, and the signature, of an opcode that takes a lane out or puts one in.
-/
def lane? (code : Nat) : Option (Nat × FuncType) :=
  let out (lanes : Nat) (t : ValType) : Nat × FuncType := (lanes, ⟨[.v128], [t]⟩)
  let into (lanes : Nat) (t : ValType) : Nat × FuncType := (lanes, ⟨[.v128, t], [.v128]⟩)
  [(0x15, out 16 .i32), (0x16, out 16 .i32), (0x17, into 16 .i32), (0x18, out 8 .i32),
    (0x19, out 8 .i32), (0x1a, into 8 .i32), (0x1b, out 4 .i32), (0x1c, into 4 .i32),
    (0x1d, out 2 .i64), (0x1e, into 2 .i64), (0x1f, out 4 .f32), (0x20, into 4 .f32),
    (0x21, out 2 .f64), (0x22, into 2 .f64)].lookup code

/-- Opcodes that read or write a vector. -/
def access? (code : Nat) : Option Access :=
  let load (width : Nat) : Access := ⟨width, [], [.v128]⟩
  [(0x00, load 4), (0x01, load 3), (0x02, load 3), (0x03, load 3), (0x04, load 3), (0x05, load 3),
    (0x06, load 3), (0x07, load 0), (0x08, load 1), (0x09, load 2), (0x0a, load 3),
    (0x0b, ⟨4, [.v128], []⟩), (0x5c, load 2), (0x5d, load 3)].lookup code

/-- Opcodes that read or write one lane. There are as many lanes as fill a vector. -/
def laneAccess? (code : Nat) : Option Access :=
  if code < 0x54 ∨ 0x5b < code then none
  else if code < 0x58 then some ⟨code - 0x54, [.v128], [.v128]⟩
  else some ⟨code - 0x58, [.v128], []⟩

end Vector

end ScriptWasm.Wasm
