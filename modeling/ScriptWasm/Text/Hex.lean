/-!
# Hexadecimal text

Bytes as pairs of lower-case hexadecimal digits, and back.
-/

namespace ScriptWasm.Hex

/-- The digit of a value below sixteen. -/
def digit (n : Nat) : Char := Nat.digitChar n

/-- The value of a hexadecimal digit in either case. -/
def value? (c : Char) : Option Nat :=
  if '0' ≤ c ∧ c ≤ '9' then some (c.toNat - '0'.toNat)
  else if 'a' ≤ c ∧ c ≤ 'f' then some (c.toNat - 'a'.toNat + 10)
  else if 'A' ≤ c ∧ c ≤ 'F' then some (c.toNat - 'A'.toNat + 10)
  else none

/-- Two digits for one byte. -/
def byteDigits (b : UInt8) : List Char := [digit (b.toNat / 16), digit (b.toNat % 16)]

/-- Two digits for each byte. -/
def encode (bytes : List UInt8) : String := String.ofList (bytes.flatMap byteDigits)

/-- The bytes behind a text of digit pairs. -/
def decodeChars? : List Char → Option (List UInt8)
  | [] => some []
  | [_] => none
  | high :: low :: rest => do
    let h ← value? high
    let l ← value? low
    let bytes ← decodeChars? rest
    return UInt8.ofNat (16 * h + l) :: bytes

def decode? (s : String) : Option (List UInt8) := decodeChars? s.toList

end ScriptWasm.Hex
