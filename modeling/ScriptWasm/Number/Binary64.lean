/-!
# Double-precision numbers, exactly

A number literal is an IEEE double. It is kept as its 64-bit word, and every operation on it is
carried out on exact ratios of natural numbers and rounded once, to the nearest double and to the
even neighbour on a tie. No machine arithmetic is involved, so what a literal means does not depend
on anything outside this file, and two literals are equal exactly when their words are.
-/

namespace ScriptWasm

/-- An IEEE double, by its bit pattern. -/
structure Binary64 where
  bits : UInt64
deriving DecidableEq, Repr, Inhabited

namespace Binary64

/-! ## The fields of the word -/

/-- One past the largest fraction: the weight of the implicit leading bit. -/
def leadingBit : Nat := 0x10000000000000

/-- The weight of the sign bit. -/
def signBit : Nat := 0x8000000000000000

/-- The exponent field that marks infinities and values that are not numbers. -/
def specialExponent : Nat := 2047

/-- Whether the sign bit is set. -/
def isNegative (x : Binary64) : Bool := signBit ≤ x.bits.toNat

/-- The word without its sign bit. -/
def magnitude (x : Binary64) : Nat := x.bits.toNat % signBit

def exponentField (x : Binary64) : Nat := x.magnitude / leadingBit

def fraction (x : Binary64) : Nat := x.magnitude % leadingBit

/-- Neither infinite nor "not a number". -/
def isFinite (x : Binary64) : Bool := x.exponentField < specialExponent

/-- The integer significand of a finite value: `significand * 2 ^ scale` is its magnitude. -/
def significand (x : Binary64) : Nat :=
  if x.exponentField = 0 then x.fraction else x.fraction + leadingBit

/-- The power of two that goes with `significand`. -/
def scale (x : Binary64) : Int := (max x.exponentField 1 : Int) - 1075

/-- The magnitude of a finite value as a numerator and a denominator. -/
def ratio (x : Binary64) : Nat × Nat :=
  (x.significand * Nat.pow 2 x.scale.toNat, Nat.pow 2 (-x.scale).toNat)

/-! ## Rounding a ratio -/

def zero : Binary64 := ⟨0⟩

/-- The value with the opposite sign. -/
def negate (x : Binary64) : Binary64 :=
  ⟨UInt64.ofNat ((x.bits.toNat + signBit) % UInt64.size)⟩

/-- The integer nearest to `n / d`, the even one of two. -/
def nearest (n d : Nat) : Nat :=
  let q := n / d
  let r := n % d
  if d < 2 * r ∨ (2 * r = d ∧ q % 2 = 1) then q + 1 else q

/-- `n / d` divided by `2 ^ e`, again as a ratio. -/
def rescale (n d : Nat) (e : Int) : Nat × Nat :=
  (n * Nat.pow 2 (-e).toNat, d * Nat.pow 2 e.toNat)

/-- The scale at which `n / d` has a 53-bit significand, or the least scale there is. -/
def scaleOf (n d : Nat) : Int :=
  let e : Int := (Nat.log2 n : Int) - Nat.log2 d - 53
  let (n', d') := rescale n d e
  max (-1074) (if 2 * leadingBit ≤ n' / d' then e + 1 else e)

/-- The double nearest to `n / d`; too large a ratio becomes infinity. -/
def ofRatio (n d : Nat) : Binary64 :=
  if n = 0 then zero
  else
    let e := scaleOf n d
    let (n', d') := rescale n d e
    let word := (e + 1074).toNat * leadingBit + nearest n' d'
    ⟨UInt64.ofNat (min word (specialExponent * leadingBit))⟩

/-- The double nearest to a natural number. -/
def ofNat (n : Nat) : Binary64 := ofRatio n 1

/-- The sum of two non-negative finite values. -/
def add (x y : Binary64) : Binary64 :=
  ofRatio (x.ratio.1 * y.ratio.2 + y.ratio.1 * x.ratio.2) (x.ratio.2 * y.ratio.2)

/-- The product of two non-negative finite values. -/
def mul (x y : Binary64) : Binary64 :=
  ofRatio (x.ratio.1 * y.ratio.1) (x.ratio.2 * y.ratio.2)

/-- The quotient of two positive finite values. -/
def div (x y : Binary64) : Binary64 :=
  ofRatio (x.ratio.1 * y.ratio.2) (x.ratio.2 * y.ratio.1)

/-! ## Reading a significand and a power of ten -/

/-- The largest power of ten that is a finite double. -/
def largestPower : Nat := 308

def powerOfTen (k : Nat) : Binary64 := ofNat (Nat.pow 10 k)

/-- Divides by `10 ^ k`, in steps that stay within the finite powers of ten. Every step rounds;
once the value is zero no step is left to make. -/
def shrink : Nat → Binary64 → Nat → Binary64
  | 0, x, _ => x
  | steps + 1, x, k =>
    if k ≤ largestPower then x.div (powerOfTen k)
    else if x = zero then x
    else shrink steps (x.div (powerOfTen largestPower)) (k - largestPower)

/-- `n * 10 ^ k`, by one rounded multiplication or by rounded divisions; `none` when the product is
out of range. The two roundings (of `n`, then of the product) are what a decimal literal means. -/
def ofScaled? (n : Nat) (k : Int) : Option Binary64 :=
  if n = 0 then some zero
  else if k < 0 then some (shrink ((-k).toNat / largestPower + 1) (ofNat n) (-k).toNat)
  else if largestPower < k.toNat then none
  else
    let x := (ofNat n).mul (powerOfTen k.toNat)
    if x.isFinite then some x else none

/-- The eight bytes of the word, least significant first. -/
def littleEndian (x : Binary64) : List UInt8 :=
  (List.range 8).map fun i ↦ UInt8.ofNat (x.bits.toNat / Nat.pow 256 i % 256)

end Binary64

end ScriptWasm
