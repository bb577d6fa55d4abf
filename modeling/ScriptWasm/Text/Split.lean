/-!
# Pieces of a text

A text is cut at every occurrence of a character. There is always one more piece than there are
occurrences, and none is left out for being empty.
-/

namespace ScriptWasm.Text

/-- Puts a character in front of the first piece; a separator starts a piece of its own. -/
def pushFront (separator c : Char) (pieces : List (List Char)) : List (List Char) :=
  if c = separator then [] :: pieces
  else
    match pieces with
    | [] => [[c]]
    | piece :: rest => (c :: piece) :: rest

/-- The pieces between separators. -/
def split (separator : Char) (cs : List Char) : List (List Char) :=
  cs.foldr (pushFront separator) [[]]

end ScriptWasm.Text
