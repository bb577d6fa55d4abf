import ScriptWasm.Json.Scan

/-!
# Values that nobody asked for

A record ignores members it does not know. Their values are passed over by the grammar alone:
strings are not decoded, numbers have no range, and nesting has no limit.
-/

namespace ScriptWasm.Json

/-! ## Scalars -/

/-- Passes over a string, from behind its opening quote. -/
def skipString : Bytes → Except Fault Bytes
  | [] => .error (.behind .endOfString [])
  | b :: rest =>
    if b = 34 then .ok rest
    else if b = 92 then
      match rest with
      | [] => .error (.behind .endOfString [])
      | e :: rest =>
        if (shortEscape? e).isSome then skipString rest
        else if e ≠ 117 then .error (.behind .invalidEscape rest)
        else
          match rest with
          | a :: b :: c :: d :: rest =>
            if (hexQuad? a b c d).isSome then skipString rest
            else .error (.behind .invalidEscape rest)
          | _ => .error (.behind .endOfString [])
    else if b < 32 then .error (.behind .controlCharacter (b :: rest))
    else skipString rest

/-- Expects a digit, and passes over all that follow. -/
def skipDigits : Bytes → Except Fault Bytes
  | [] => .error (.behind .invalidNumber [])
  | b :: rest =>
    if isDigit b then .ok (rest.dropWhile isDigit) else .error (.behind .invalidNumber rest)

/-- Passes over an exponent, if one follows. -/
def skipExponent : Bytes → Except Fault Bytes
  | [] => .ok []
  | b :: rest =>
    if b = 101 ∨ b = 69 then
      match rest with
      | 43 :: rest => skipDigits rest
      | 45 :: rest => skipDigits rest
      | other => skipDigits other
    else .ok (b :: rest)

/-- Passes over what may follow the integer digits of a number. -/
def skipFraction : Bytes → Except Fault Bytes
  | 46 :: rest =>
    if startsWithDigit rest then skipExponent (rest.dropWhile isDigit)
    else .error (.ahead .invalidNumber rest)
  | other => skipExponent other

/-- Passes over a number, from behind its minus sign if it has one. -/
def skipNumber : Bytes → Except Fault Bytes
  | [] => .error (.behind .invalidNumber [])
  | b :: rest =>
    if b = 48 then
      if startsWithDigit rest then .error (.ahead .invalidNumber rest) else skipFraction rest
    else if isDigit b then skipFraction (rest.dropWhile isDigit)
    else .error (.behind .invalidNumber rest)

/-! ## Lists and objects -/

/-- A bracket that is open. -/
inductive Bracket where
  | list
  | object
deriving DecidableEq, Repr

namespace Bracket

def closing : Bracket → UInt8
  | .list => 93
  | .object => 125

def atEnd : Bracket → Problem
  | .list => .endOfList
  | .object => .endOfObject

def noComma : Bracket → Problem
  | .list => .expectedListCommaOrEnd
  | .object => .expectedObjectCommaOrEnd

end Bracket

/-- Passes over the key of a member and its colon; a list has none. -/
def skipKey : Bracket → Bytes → Except Fault Bytes
  | .list, bytes => .ok bytes
  | .object, bytes =>
    match skipBlanks bytes with
    | [] => .error (.ahead .endOfObject [])
    | b :: rest =>
      if b ≠ 34 then .error (.ahead .keyMustBeString (b :: rest))
      else do
        let rest ← skipString rest
        match skipBlanks rest with
        | [] => .error (.ahead .endOfObject [])
        | c :: rest => if c = 58 then .ok rest else .error (.ahead .expectedColon (c :: rest))

/-- Where the walk over a skipped value stands: before a value, behind an opening bracket, or behind
a value. -/
inductive SkipPoint where
  | value
  | opened
  | done

/-- Walks over a value inside the brackets `open_`, innermost first. Every two steps pass over a
byte, so twice the bytes that are left bounds the steps. -/
def skipSteps : Nat → SkipPoint → List Bracket → Bytes → Except Fault Bytes
  | 0, _, _, bytes => .error (.ahead .expectedValue bytes)
  | _ + 1, .done, [], bytes => .ok bytes
  | steps + 1, .done, bracket :: open_, bytes =>
    match skipBlanks bytes with
    | [] => .error (.ahead bracket.atEnd [])
    | b :: rest =>
      if b = 44 then do
        let rest ← skipKey bracket rest
        skipSteps steps .value (bracket :: open_) rest
      else if b = bracket.closing then skipSteps steps .done open_ rest
      else .error (.ahead bracket.noComma (b :: rest))
  | _ + 1, .opened, [], bytes => .ok bytes
  | steps + 1, .opened, bracket :: open_, bytes =>
    match skipBlanks bytes with
    | [] => .error (.ahead bracket.atEnd [])
    | b :: rest =>
      if b = bracket.closing then skipSteps steps .done open_ rest
      else do
        let rest ← skipKey bracket (b :: rest)
        skipSteps steps .value (bracket :: open_) rest
  | steps + 1, .value, open_, bytes =>
    match skipBlanks bytes with
    | [] => .error (.ahead .endOfValue [])
    | b :: rest =>
      if b = 110 then do
        let rest ← word wordNull rest
        skipSteps steps .done open_ rest
      else if b = 116 then do
        let rest ← word wordTrue rest
        skipSteps steps .done open_ rest
      else if b = 102 then do
        let rest ← word wordFalse rest
        skipSteps steps .done open_ rest
      else if b = 45 then do
        let rest ← skipNumber rest
        skipSteps steps .done open_ rest
      else if isDigit b then do
        let rest ← skipNumber (b :: rest)
        skipSteps steps .done open_ rest
      else if b = 34 then do
        let rest ← skipString rest
        skipSteps steps .done open_ rest
      else if b = 91 then skipSteps steps .opened (.list :: open_) rest
      else if b = 123 then skipSteps steps .opened (.object :: open_) rest
      else .error (.ahead .expectedValue (b :: rest))

/-- Passes over one value. -/
def skipValue (bytes : Bytes) : Except Fault Bytes :=
  skipSteps (2 * bytes.length + 2) .value [] bytes

end ScriptWasm.Json
