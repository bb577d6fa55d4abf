import ScriptWasm.Json.Scan

/-!
# JSON values

A value is the grammar's tree. It serves two purposes: a statement is read into one before its parts
are decoded, and everything that is written is first laid out as one. An object is its list of
members, in order and with repetitions, since both can be seen.
-/

namespace ScriptWasm.Json

inductive Value where
  | null
  | boolean (value : Bool)
  | number (value : Number)
  | string (value : String)
  | array (items : List Value)
  | object (members : List (String × Value))
deriving Inhabited

namespace Value

def natural (n : Nat) : Value := .number (.integer n)

def float (x : Binary64) : Value := .number (.float x)

def strings (names : List String) : Value := .array (names.map .string)

/-- A text or null. -/
def optional : Option String → Value
  | none => .null
  | some s => .string s

end Value

/-! ## Writing -/

/-- A byte below 32 is written by its code, in four digits. -/
def controlEscape (c : Char) : List Char :=
  ['\\', 'u', '0', '0', Hex.digit (c.toNat / 16), Hex.digit (c.toNat % 16)]

/-- One character of a written string. -/
def escapeChar (c : Char) : List Char :=
  if c = '"' ∨ c = '\\' then ['\\', c]
  else if c.toNat = 8 then ['\\', 'b']
  else if c.toNat = 9 then ['\\', 't']
  else if c.toNat = 10 then ['\\', 'n']
  else if c.toNat = 12 then ['\\', 'f']
  else if c.toNat = 13 then ['\\', 'r']
  else if c.toNat < 32 then controlEscape c
  else [c]

/-- A string between quotes. -/
def writeString (s : String) : String :=
  String.ofList ('"' :: s.toList.flatMap escapeChar ++ ['"'])

def Number.write : Number → String
  | .integer n => toString n
  | .float x => x.text

mutual

/-- The text of a value, without blanks. -/
def Value.write : Value → String
  | .null => "null"
  | .boolean b => if b then "true" else "false"
  | .number n => n.write
  | .string s => writeString s
  | .array items => "[" ++ writeItems items ++ "]"
  | .object members => "\x7b" ++ writeMembers members ++ "\x7d"

/-- The items of an array, with commas between them. -/
def writeItems : List Value → String
  | [] => ""
  | [v] => v.write
  | v :: w :: rest => v.write ++ "," ++ writeItems (w :: rest)

/-- The members of an object, with commas between them. -/
def writeMembers : List (String × Value) → String
  | [] => ""
  | [(name, v)] => writeString name ++ ":" ++ v.write
  | (name, v) :: m :: rest => writeString name ++ ":" ++ v.write ++ "," ++ writeMembers (m :: rest)

end

/-- What a value is called when something else was expected. -/
def Value.found : Value → Found
  | .null => .null
  | .boolean b => .boolean b
  | .number (.integer n) => .integer n
  | .number (.float x) => .float x
  | .string s => .text s
  | .array _ => .sequence
  | .object _ => .map

end ScriptWasm.Json
