import ScriptWasm.Json.Problem
import ScriptWasm.Text.Bytes

/-!
# Problems with a place

A text is read as bytes, and a reader's only state is the bytes that are left. A place in the text
is the number of bytes left there: it is meaningful without knowing the text, and becomes a line and
a column when the text is at hand.

A fault may lack a place. Reading a value can go wrong in a way that no byte is to blame for (a
field that is missing, a value of the wrong shape); such a fault is placed by the list or record
around it, once that has looked for its closing bracket. So a fault also carries the bytes that were
left when it arose.
-/

namespace ScriptWasm.Json

/-- A problem, the bytes left where reading stopped, and the place it is reported at: how many bytes
are left there. -/
structure Fault where
  problem : Problem
  place : Option Nat
  rest : Bytes
deriving DecidableEq, Repr

namespace Fault

/-- A problem that lies just behind the bytes read so far. -/
def behind (problem : Problem) (rest : Bytes) : Fault := ⟨problem, some rest.length, rest⟩

/-- A problem that lies in the next byte, or behind the last one if there is no next. -/
def ahead (problem : Problem) (rest : Bytes) : Fault := ⟨problem, some (rest.length - 1), rest⟩

/-- A problem that has no place yet. -/
def unplaced (problem : Problem) (rest : Bytes) : Fault := ⟨problem, none, rest⟩

/-- Gives a fault without a place the place where reading has got to. -/
def settle (f : Fault) (rest : Bytes) : Fault :=
  ⟨f.problem, some (f.place.getD rest.length), rest⟩

end Fault

/-! ## Lines and columns -/

/-- A line counted from one, and the number of bytes of it that come before the place. -/
structure Position where
  line : Nat
  column : Nat
deriving DecidableEq, Repr

/-- Walks over the bytes before a place. -/
def Position.advance (p : Position) (b : UInt8) : Position :=
  if b = 10 then ⟨p.line + 1, 0⟩ else ⟨p.line, p.column + 1⟩

/-- The position of the place in `text` that has `left` bytes behind it. -/
def Position.of (text : Bytes) (left : Nat) : Position :=
  (text.take (text.length - left)).foldl Position.advance ⟨1, 0⟩

/-- The position of a fault, if it has a place. -/
def Fault.position? (text : Bytes) (f : Fault) : Option Position :=
  f.place.map (Position.of text)

/-- The problem, and where it lies. -/
def Fault.message (text : Bytes) (f : Fault) : String :=
  match f.position? text with
  | none => f.problem.message
  | some p => s!"{f.problem.message} at line {p.line} column {p.column}"

end ScriptWasm.Json
