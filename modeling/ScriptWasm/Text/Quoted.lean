import ScriptWasm.Text.Visible

/-!
# Quoted text

How a text is shown inside a message: between double quotes, with a backslash before what would end
the quotation, short names for the common controls, and the code point of every character that has
no appearance of its own.
-/

namespace ScriptWasm.Text

/-- A character by its code point. -/
def codePointEscape (c : Char) : List Char :=
  '\\' :: 'u' :: '\x7b' :: Nat.toDigits 16 c.toNat ++ ['\x7d']

/-- One character of a quoted text. -/
def quoteChar (c : Char) : List Char :=
  if c.toNat = 0 then ['\\', '0']
  else if c = '\t' then ['\\', 't']
  else if c = '\r' then ['\\', 'r']
  else if c = '\n' then ['\\', 'n']
  else if c = '\\' ∨ c = '"' then ['\\', c]
  else if CodePoints.combining.contains c then codePointEscape c
  else if c = ' ' ∨ !CodePoints.unseen.contains c then [c]
  else codePointEscape c

/-- The text between double quotes. -/
def quoted (s : String) : String :=
  String.ofList ('"' :: s.toList.flatMap quoteChar ++ ['"'])

end ScriptWasm.Text
