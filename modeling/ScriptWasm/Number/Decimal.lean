import ScriptWasm.Number.Binary64

/-!
# The shortest decimal of a double

A double is written with the fewest decimal digits that read back as the same double. The search is
the definition: for one digit, two digits, and so on, the two neighbours of the value on that
decimal grid are tested for lying in the interval of reals that round to the double. The first grid
with a hit is taken, and of two hits the one nearer to the value.

How the digits are laid out is a separate decision, made once in `Decimal.text`.
-/

namespace ScriptWasm

/-- `digits * 10 ^ exponent`. -/
structure Decimal where
  digits : Nat
  exponent : Int
deriving DecidableEq, Repr, Inhabited

namespace Decimal

/-- The decimal as a numerator and a denominator. -/
def ratio (d : Decimal) : Nat × Nat :=
  (d.digits * Nat.pow 10 d.exponent.toNat, Nat.pow 10 (-d.exponent).toNat)

/-- The decimal digits, most significant first. -/
def digitChars (d : Decimal) : List Char := Nat.toDigits 10 d.digits

/-- The exponent of the leading digit. -/
def leadingExponent (d : Decimal) : Int := d.exponent + (d.digitChars.length - 1 : Nat)

/-! ## The rounding interval

All four points are numerators over the common denominator `4 * 2 ^ k`, so that comparing them with
a decimal is one cross multiplication. -/

/-- The reals that round to a positive double: from `low` to `high` over `denominator`, with the end
points included when `closed`. -/
structure Interval where
  low : Nat
  value : Nat
  high : Nat
  denominator : Nat
  closed : Bool

/-- The gap below a power of two is half the gap above it. -/
def Interval.of (x : Binary64) : Interval :=
  let s := x.significand
  let unit := Nat.pow 2 x.scale.toNat
  let below := if s = Binary64.leadingBit ∧ 1 < x.exponentField then 1 else 2
  { low := (4 * s - below) * unit
    value := 4 * s * unit
    high := (4 * s + 2) * unit
    denominator := 4 * Nat.pow 2 (-x.scale).toNat
    closed := s % 2 == 0 }

/-- Whether a decimal lies in the interval. -/
def Interval.contains (i : Interval) (d : Decimal) : Bool :=
  let (n, m) := d.ratio
  let point := n * i.denominator
  if i.closed then i.low * m ≤ point && point ≤ i.high * m
  else i.low * m < point && point < i.high * m

/-! ## The search -/

/-- Whether `n / d` is at least `10 ^ e`. -/
def atLeastPower (n d : Nat) (e : Int) : Bool :=
  d * Nat.pow 10 e.toNat ≤ n * Nat.pow 10 (-e).toNat

/-- The `e` with `10 ^ e ≤ n / d < 10 ^ (e + 1)`: the estimate from the binary logarithms is off by
at most a few, and is corrected downwards from above. -/
def powerBelow (n d : Nat) : Int :=
  let estimate : Int := ((Nat.log2 n : Int) + 1 - Nat.log2 d) * 30103 / 100000 + 2
  let candidates := (List.range 6).map fun i : Nat ↦ estimate - (i : Int)
  (candidates.find? (atLeastPower n d)).getD (estimate - 5)

/-- The neighbour below `n / d` on the grid of multiples of `10 ^ e`. -/
def gridBelow (n d : Nat) (e : Int) : Decimal :=
  ⟨n * Nat.pow 10 (-e).toNat / (d * Nat.pow 10 e.toNat), e⟩

/-- Of the two neighbours `below` and `above` on one grid, those that read back as the double; if
both do, the one nearer to it, and the even one if both are equally near. -/
def pick (i : Interval) (below above : Decimal) : Option Decimal :=
  match i.contains below, i.contains above with
  | false, false => none
  | true, false => some below
  | false, true => some above
  | true, true =>
    let value := i.value * below.ratio.2
    let toBelow := value - below.ratio.1 * i.denominator
    let toAbove := above.ratio.1 * i.denominator - value
    if toBelow < toAbove ∨ (toBelow = toAbove ∧ below.digits % 2 = 0) then some below
    else some above

/-- The digits without their trailing zeros. -/
def strip : Nat → Decimal → Decimal
  | 0, d => d
  | steps + 1, d =>
    if d.digits ≠ 0 ∧ d.digits % 10 = 0 then strip steps ⟨d.digits / 10, d.exponent + 1⟩ else d

/-- The shortest decimal that reads back as the magnitude of a finite non-zero double. Seventeen
digits always suffice. -/
def shortest (x : Binary64) : Decimal :=
  let i := Interval.of x
  let top := powerBelow i.value i.denominator
  let grid (digits : Nat) : Option Decimal :=
    let below := gridBelow i.value i.denominator (top - digits)
    pick i below ⟨below.digits + 1, below.exponent⟩
  strip 18 (((List.range 17).findSome? grid).getD (gridBelow i.value i.denominator (top - 16)))

/-! ## Layout -/

/-- Digits with the point placed by the exponent of the leading digit. Values from `10 ^ -5` up to,
and not including, `10 ^ 16` are written positionally with at least one digit after the point; all
others in scientific notation with a signed exponent. -/
def text (d : Decimal) : String :=
  let digits := d.digitChars
  let e := d.leadingExponent
  if e < -5 ∨ 16 ≤ e then
    let mantissa := match digits with
      | first :: second :: rest => first :: '.' :: second :: rest
      | short => short
    let sign := if e < 0 then "e-" else "e+"
    String.ofList mantissa ++ sign ++ toString e.natAbs
  else if e < 0 then
    String.ofList ('0' :: '.' :: List.replicate (e.natAbs - 1) '0' ++ digits)
  else
    let whole := e.toNat + 1
    let padded := digits ++ List.replicate (whole - digits.length) '0'
    let tail := padded.drop whole
    String.ofList (padded.take whole ++ '.' :: (if tail.isEmpty then ['0'] else tail))

end Decimal

/-- The text of a finite double. -/
def Binary64.text (x : Binary64) : String :=
  let body := if x.magnitude = 0 then "0.0" else (Decimal.shortest x).text
  if x.isNegative then "-" ++ body else body

end ScriptWasm
