/-!
# Sets of code points

A property of characters is a set of code points with long runs in it and long gaps between them. It
is kept by its boundaries: the ascending list of the points at which membership changes, starting
from "not a member". A point belongs to the set when it has passed an odd number of boundaries.
-/

namespace ScriptWasm

/-- A set of code points, by the ascending points at which membership changes. -/
structure CodePoints where
  boundaries : List Nat

namespace CodePoints

def contains (s : CodePoints) (c : Char) : Bool :=
  s.boundaries.countP (· ≤ c.toNat) % 2 == 1

end CodePoints

/-- The characters that count as blank at the ends of a text. -/
def CodePoints.blank : CodePoints := ⟨
  [0x9, 0xe, 0x20, 0x21, 0x85, 0x86, 0xa0, 0xa1, 0x1680, 0x1681, 0x2000, 0x200b, 0x2028, 0x202a,
    0x202f, 0x2030, 0x205f, 0x2060, 0x3000, 0x3001]⟩

namespace Text

/-- The text without the blanks before its first other character. -/
def dropBlanks (s : String) : List Char :=
  s.toList.dropWhile CodePoints.blank.contains

/-- The text without the blanks after its last other character. -/
def trimEnd (s : String) : String :=
  String.ofList (s.toList.reverse.dropWhile CodePoints.blank.contains).reverse

end Text

end ScriptWasm
