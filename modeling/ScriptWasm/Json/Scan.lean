import ScriptWasm.Json.Fault
import ScriptWasm.Text.Hex

/-!
# Blanks, words, strings and numbers

The scalar parts of the grammar, each as a function from the bytes that are left to a value and the
bytes that are then left. The recursion is on the bytes themselves.
-/

namespace ScriptWasm.Json

/-! ## Blanks and words -/

def isBlank (b : UInt8) : Bool := b == 32 || b == 10 || b == 9 || b == 13

/-- The bytes from the first one that is not blank. -/
def skipBlanks (bytes : Bytes) : Bytes := bytes.dropWhile isBlank

/-- Expects the bytes of a word, the first of which has been read. -/
def word : Bytes → Bytes → Except Fault Bytes
  | [], rest => .ok rest
  | _ :: _, [] => .error (.behind .endOfValue [])
  | w :: ws, b :: rest => if b = w then word ws rest else .error (.behind .expectedIdent rest)

def wordNull : Bytes := bytesOf "ull"
def wordTrue : Bytes := bytesOf "rue"
def wordFalse : Bytes := bytesOf "alse"

/-! ## Strings -/

/-- The value of a hexadecimal digit. -/
def hexDigit? (b : UInt8) : Option Nat := Hex.value? (Char.ofNat b.toNat)

/-- The number written by four hexadecimal digits. -/
def hexQuad? (a b c d : UInt8) : Option Nat := do
  let a ← hexDigit? a
  let b ← hexDigit? b
  let c ← hexDigit? c
  let d ← hexDigit? d
  return ((a * 16 + b) * 16 + c) * 16 + d

def isLeadingSurrogate (n : Nat) : Bool := 0xD800 ≤ n && n ≤ 0xDBFF

def isTrailingSurrogate (n : Nat) : Bool := 0xDC00 ≤ n && n ≤ 0xDFFF

/-- The bytes of the character with code point `n`. -/
def codePointBytes (n : Nat) : Bytes := String.utf8EncodeChar (Char.ofNat n)

/-- The byte that a one-letter escape stands for. -/
def shortEscape? (b : UInt8) : Option UInt8 :=
  if b = 34 ∨ b = 92 ∨ b = 47 then some b
  else if b = 98 then some 8
  else if b = 102 then some 12
  else if b = 110 then some 10
  else if b = 114 then some 13
  else if b = 116 then some 9
  else none

/-- The bytes of a string up to its closing quote, escapes resolved, in front of which `done` stands
in reverse. A character outside the basic plane is escaped as two surrogates. -/
def stringBytes (done : Bytes) : Bytes → Except Fault (Bytes × Bytes)
  | [] => .error (.behind .endOfString [])
  | b :: rest =>
    if b = 34 then .ok (done.reverse, rest)
    else if b = 92 then
      match rest with
      | [] => .error (.behind .endOfString [])
      | e :: rest =>
        match shortEscape? e with
        | some c => stringBytes (c :: done) rest
        | none =>
          if e ≠ 117 then .error (.behind .invalidEscape rest)
          else
            match rest with
            | a :: b :: c :: d :: rest =>
              match hexQuad? a b c d with
              | none => .error (.behind .invalidEscape rest)
              | some n =>
                if isTrailingSurrogate n then .error (.behind .loneSurrogate rest)
                else if isLeadingSurrogate n then
                  match rest with
                  | [] => .error (.behind .endOfString [])
                  | b :: rest =>
                    if b ≠ 92 then .error (.behind .unfinishedSurrogate rest)
                    else
                      match rest with
                      | [] => .error (.behind .endOfString [])
                      | b :: rest =>
                        if b ≠ 117 then .error (.behind .unfinishedSurrogate rest)
                        else
                          match rest with
                          | a :: b :: c :: d :: rest =>
                            match hexQuad? a b c d with
                            | none => .error (.behind .invalidEscape rest)
                            | some m =>
                              if isTrailingSurrogate m then
                                let point := (n - 0xD800) * 1024 + (m - 0xDC00) + 0x10000
                                stringBytes ((codePointBytes point).reverse ++ done) rest
                              else .error (.behind .loneSurrogate rest)
                          | _ => .error (.behind .endOfString [])
                else stringBytes ((codePointBytes n).reverse ++ done) rest
            | _ => .error (.behind .endOfString [])
    else if b < 32 then .error (.behind .controlCharacter rest)
    else stringBytes (b :: done) rest

/-- A string, from behind its opening quote. That it is no text is noticed at the closing quote; to
blame is the first byte between the quotes that does not start a character. -/
def string (bytes : Bytes) : Except Fault (String × Bytes) := do
  let (contents, rest) ← stringBytes [] bytes
  match textOf? contents with
  | some s => .ok (s, rest)
  | none =>
    let written := bytes.take (bytes.length - rest.length - 1)
    let left := (fromMalformed written written.length).length + rest.length
    .error ⟨.invalidCodePoint, some left, rest⟩

/-! ## Numbers -/

/-- A number literal: an integer that fits in 64 bits (with a sign if it is negative), or a double.
-/
inductive Number where
  | integer (value : Int)
  | float (value : Binary64)
deriving DecidableEq, Repr

def isDigit (b : UInt8) : Bool := 48 ≤ b && b ≤ 57

def digitValue (b : UInt8) : Nat := b.toNat - 48

/-- The largest significand that is kept. -/
def largestSignificand : Nat := UInt64.size - 1

/-- Appends digits to a significand as long as it stays in bounds. The result is the significand,
how many digits were appended, and the rest, which starts with a digit exactly if that one did not
fit. -/
def appendDigits (significand count : Nat) : Bytes → Nat × Nat × Bytes
  | [] => (significand, count, [])
  | b :: rest =>
    let next := significand * 10 + digitValue b
    if isDigit b && next ≤ largestSignificand then appendDigits next (count + 1) rest
    else (significand, count, b :: rest)

def startsWithDigit : Bytes → Bool
  | [] => false
  | b :: _ => isDigit b

/-- The sign in front of a value. -/
def withSign (negative : Bool) (x : Binary64) : Binary64 := if negative then x.negate else x

/-- A double from its significand and power of ten. -/
def scaled (negative : Bool) (significand : Nat) (exponent : Int) (rest : Bytes) :
    Except Fault (Binary64 × Bytes) :=
  match Binary64.ofScaled? significand exponent with
  | some x => .ok (withSign negative x, rest)
  | none => .error (.behind .numberOutOfRange rest)

/-- One past the largest exponent that is looked at. -/
def exponentLimit : Nat := 0x80000000

/-- The digits of an exponent. Past 31 bits the outcome no longer depends on them: the number is
zero or out of range. -/
def exponentDigits (negative : Bool) (significand : Nat) (start : Int) (shrinks : Bool)
    (exponent : Nat) (bytes : Bytes) : Except Fault (Binary64 × Bytes) :=
  let total := if shrinks then start - exponent else start + exponent
  match bytes with
  | [] => scaled negative significand total []
  | b :: rest =>
    if isDigit b then
      let next := exponent * 10 + digitValue b
      if next < exponentLimit then exponentDigits negative significand start shrinks next rest
      else if significand ≠ 0 && !shrinks then .error (.behind .numberOutOfRange rest)
      else .ok (withSign negative .zero, rest.dropWhile isDigit)
    else scaled negative significand total (b :: rest)

/-- An exponent, from behind its `e`. -/
def exponentPart (negative : Bool) (significand : Nat) (start : Int) (bytes : Bytes) :
    Except Fault (Binary64 × Bytes) :=
  let (shrinks, bytes) := match bytes with
    | 43 :: rest => (false, rest)
    | 45 :: rest => (true, rest)
    | other => (false, other)
  match bytes with
  | [] => .error (.behind .endOfValue [])
  | b :: rest =>
    if isDigit b then exponentDigits negative significand start shrinks (digitValue b) rest
    else .error (.behind .invalidNumber rest)

/-- What may follow the digits of a double: an exponent or nothing. -/
def afterDigits (negative : Bool) (significand : Nat) (exponent : Int) :
    Bytes → Except Fault (Binary64 × Bytes)
  | [] => scaled negative significand exponent []
  | b :: rest =>
    if b = 101 ∨ b = 69 then exponentPart negative significand exponent rest
    else scaled negative significand exponent (b :: rest)

/-- The digits behind the point. Digits that no longer fit are dropped. -/
def fractionPart (negative : Bool) (significand : Nat) (exponent : Int) (bytes : Bytes) :
    Except Fault (Binary64 × Bytes) :=
  let (significand, count, rest) := appendDigits significand 0 bytes
  if startsWithDigit rest then
    afterDigits negative significand (exponent - count) (rest.dropWhile isDigit)
  else if count = 0 then
    .error (.ahead (if rest.isEmpty then .endOfValue else .invalidNumber) rest)
  else afterDigits negative significand (exponent - count) rest

/-- The largest magnitude of a negative integer. -/
def largestNegative : Nat := 0x8000000000000000

/-- An integer literal; minus zero and integers that do not fit are doubles. -/
def integer (negative : Bool) (significand : Nat) : Number :=
  if !negative then .integer significand
  else if 0 < significand ∧ significand ≤ largestNegative then .integer (-significand)
  else .float (withSign true (Binary64.ofNat significand))

/-- What may follow the integer digits of a number. -/
def afterInteger (negative : Bool) (significand : Nat) :
    Bytes → Except Fault (Number × Bytes)
  | [] => .ok (integer negative significand, [])
  | b :: rest =>
    if b = 46 then do
      let (x, rest) ← fractionPart negative significand 0 rest
      return (.float x, rest)
    else if b = 101 ∨ b = 69 then do
      let (x, rest) ← exponentPart negative significand 0 rest
      return (.float x, rest)
    else .ok (integer negative significand, b :: rest)

/-- Integer digits that no longer fit are counted and dropped. -/
def longInteger (negative : Bool) (significand : Nat) (bytes : Bytes) :
    Except Fault (Binary64 × Bytes) :=
  let dropped := (bytes.takeWhile isDigit).length
  match bytes.dropWhile isDigit with
  | 46 :: rest => fractionPart negative significand dropped rest
  | rest => afterDigits negative significand dropped rest

/-- A number, from behind its minus sign if it has one. -/
def number (negative : Bool) : Bytes → Except Fault (Number × Bytes)
  | [] => .error (.behind .endOfValue [])
  | b :: rest =>
    if b = 48 then
      if startsWithDigit rest then .error (.ahead .invalidNumber rest)
      else afterInteger negative 0 rest
    else if isDigit b then
      let (significand, _, rest) := appendDigits (digitValue b) 1 rest
      if startsWithDigit rest then do
        let (x, rest) ← longInteger negative significand rest
        return (.float x, rest)
      else afterInteger negative significand rest
    else .error (.behind .invalidNumber rest)

end ScriptWasm.Json
