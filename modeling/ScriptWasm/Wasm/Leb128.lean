import ScriptWasm.Text.Bytes

/-!
# Variable-length integers

An integer is written in groups of seven bits, lowest first; every byte but the last has its top bit
set. Writing uses as few groups as possible. Reading accepts longer forms, as long as they stay
within the bytes that an integer of the given width can need and the unused bits of the last one
agree with the value.

Integers of 64 bits need at most ten groups, so both directions recurse on a number of groups.
-/

namespace ScriptWasm.Leb128

/-! ## Writing -/

/-- The groups of a natural number, at most `more + 1` of them. -/
def unsignedGroups : Nat → Nat → Bytes
  | 0, n => [UInt8.ofNat n]
  | more + 1, n =>
    if n < 128 then [UInt8.ofNat n]
    else UInt8.ofNat (n % 128 + 128) :: unsignedGroups more (n / 128)

/-- A natural number below `2 ^ 64`. -/
def unsigned (n : Nat) : Bytes := unsignedGroups 9 n

/-- The groups of an integer, at most `more + 1` of them. The last group carries the sign in its
seventh bit. -/
def signedGroups : Nat → Int → Bytes
  | 0, n => [UInt8.ofNat (n % 128).toNat]
  | more + 1, n =>
    if -64 ≤ n ∧ n < 64 then [UInt8.ofNat (n % 128).toNat]
    else UInt8.ofNat ((n % 128).toNat + 128) :: signedGroups more (n / 128)

/-- An integer between `-2 ^ 63` and `2 ^ 63`. -/
def signed (n : Int) : Bytes := signedGroups 9 n

/-! ## Reading -/

/-- A natural number of at most `width` bits. A group of which only some bits are within the width
is the last one, and the others are zero. -/
def readUnsigned : (width : Nat) → Bytes → Option (Nat × Bytes)
  | _, [] => none
  | width, b :: rest =>
    if b.toNat < 128 then
      if width < 7 ∧ Nat.pow 2 width ≤ b.toNat then none else some (b.toNat, rest)
    else if width ≤ 7 then none
    else (readUnsigned (width - 7) rest).map fun (n, rest) ↦ (n * 128 + (b.toNat - 128), rest)

/-- The value of a last group as an integer of seven bits. -/
def signedGroup (b : Nat) : Int := if b < 64 then b else (b : Int) - 128

/-- An integer of at most `width` bits, the sign included. -/
def readSigned : (width : Nat) → Bytes → Option (Int × Bytes)
  | _, [] => none
  | width, b :: rest =>
    if b.toNat < 128 then
      let n := signedGroup b.toNat
      let half : Int := Nat.pow 2 (width - 1)
      if width < 7 ∧ (n < -half ∨ half ≤ n) then none else some (n, rest)
    else if width ≤ 7 then none
    else (readSigned (width - 7) rest).map fun (n, rest) ↦ (n * 128 + (b.toNat - 128), rest)

end ScriptWasm.Leb128
