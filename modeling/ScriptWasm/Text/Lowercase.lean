import ScriptWasm.Text.Case

/-!
# Lower case

Library types and members are found whatever the case of their names: the key of a name is its
lower-case form. A capital sigma is the one letter whose form depends on where it stands: at the end
of a word it becomes the final form. A word is looked for through characters that do not interrupt
one, such as an accent or an apostrophe.
-/

namespace ScriptWasm.Text

/-- The lower-case form of a character, wherever it stands. -/
def lowerChar (c : Char) : List Char :=
  if c = 'İ' then ['i', Char.ofNat 0x307]
  else
    match CaseRun.all.find? (·.covers c.toNat) with
    | some run => [Char.ofNat (c.toNat + run.offset).toNat]
    | none => [c]

/-- Whether the first character that interrupts a word is itself a letter with case. -/
def facesCased (cs : List Char) : Bool :=
  match cs.dropWhile CodePoints.caseIgnorable.contains with
  | [] => false
  | c :: _ => CodePoints.cased.contains c

/-- The sigma for a capital one that has `before` (nearest first) and `after` around it. -/
def lowerSigma (before after : List Char) : Char :=
  if facesCased before && !facesCased after then 'ς' else 'σ'

/-- Lower-cases `cs`, which follows the characters `before` (nearest first). -/
def lowerAfter (before : List Char) : List Char → List Char
  | [] => []
  | c :: cs =>
    (if c = 'Σ' then [lowerSigma before cs] else lowerChar c) ++ lowerAfter (c :: before) cs

/-- The lower-case form of a text. -/
def lowercase (s : String) : String := String.ofList (lowerAfter [] s.toList)

end ScriptWasm.Text
