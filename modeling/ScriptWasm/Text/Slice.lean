/-!
# Places in a text

A place in a text is told by the number of bytes in front of it. A text can be cut at its ends and
between two characters, and nowhere else: an offset in the middle of a character is no place to cut.
-/

namespace ScriptWasm.Text

/-- The offsets of a character among characters that begin at the offset `start`. -/
def offsetsFrom (c : Char) (start : Nat) : List Char → List Nat
  | [] => []
  | d :: cs =>
    if d = c then start :: offsetsFrom c (start + d.utf8Size) cs
    else offsetsFrom c (start + d.utf8Size) cs

/-- The part of a text between two offsets, if they are in order and the text can be cut at both. -/
def slice? (s : String) (start stop : Nat) : Option String :=
  if h : start ≤ stop ∧ String.Pos.Raw.IsValid s ⟨start⟩ ∧ String.Pos.Raw.IsValid s ⟨stop⟩ then
    some (String.extract (s.pos ⟨start⟩ h.2.1) (s.pos ⟨stop⟩ h.2.2))
  else none

end ScriptWasm.Text
