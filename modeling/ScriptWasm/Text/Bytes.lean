/-!
# Texts as bytes

Everything that is read or written outside is bytes. A text is written as UTF-8, and bytes are a
text only if they are UTF-8.
-/

namespace ScriptWasm

abbrev Bytes := List UInt8

/-- The bytes of a text. -/
def bytesOf (s : String) : Bytes := s.toUTF8.toList

/-- The text that bytes encode. -/
def textOf? (bytes : Bytes) : Option String := String.fromUTF8? ⟨bytes.toArray⟩

/-- How many bytes the character has that bytes start with. -/
def charLength? (bytes : Bytes) : Option Nat :=
  [1, 2, 3, 4].find? fun n ↦ (textOf? (bytes.take n)).isSome

/-- The bytes from the first one on that does not start a character, looked for in at most `steps`
characters. -/
def fromMalformed (bytes : Bytes) : (steps : Nat) → Bytes
  | 0 => bytes
  | steps + 1 =>
    match charLength? bytes with
    | some n => fromMalformed (bytes.drop n) steps
    | none => bytes

end ScriptWasm
