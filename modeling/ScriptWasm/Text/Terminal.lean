import ScriptWasm.Text.Bytes

/-!
# Texts without controls for a terminal

A text may hold sequences that a terminal obeys instead of showing them, for colours and the like.
Where no terminal is at the other end they are taken out, and so are all other control characters
but line ends, tabs and page ends.

Taking out alternates between two activities. While bytes are shown, every byte counts by itself;
the first one that is not shown makes it skip. While it skips, it follows the grammar of the
sequences, until there is a byte to show. A line end inside a sequence is such a byte; the sequence
is then given up, and resumed by the next byte that is not shown.
-/

namespace ScriptWasm.Terminal

/-- How far the head of a sequence has come. -/
inductive Stage where
  | start
  | parameters
  | tail
deriving DecidableEq, Repr

/-- Where in a sequence a byte stands. -/
inductive Place where
  | outside
  /-- Behind the escape character. -/
  | escape
  | escapeTail
  /-- In the head of a sequence; that of a device control has a string behind it. -/
  | head (stage : Stage) (device : Bool)
  /-- In a sequence whose head makes no sense. -/
  | spoiled
  /-- In a string for the operating system, which a bell ends. -/
  | command
  /-- In any other string. -/
  | string
deriving DecidableEq, Repr

def isWithin (b low high : UInt8) : Bool := low ≤ b && b ≤ high

/-- Controls that are shown: tab, line end, page end, carriage return. -/
def isSpacing (b : UInt8) : Bool := b = 9 || b = 10 || b = 12 || b = 13

/-- Whether a byte is shown by itself, or starts a character that is. -/
def isShown (b : UInt8) : Bool := isWithin b 0x20 0x7e || isSpacing b || isWithin b 0xc2 0xf4

/-- How many further bytes the character has that a byte starts. -/
def continuations (b : UInt8) : Nat :=
  if b < 0xc2 then 0 else if b < 0xe0 then 1 else if b < 0xf0 then 2 else 3

/-- The place behind the head of a sequence that is complete, or spoiled. -/
def afterHead (device isSpoiled : Bool) : Place :=
  if device then .string else if isSpoiled then .spoiled else .outside

namespace Place

/-- Whether a byte is shown that stands in a place. -/
def shows (p : Place) (b : UInt8) : Bool :=
  match p with
  | .outside => isShown b
  | .escape | .escapeTail | .head _ false | .spoiled => isSpacing b
  | .head _ true | .command | .string => false

/-- The place behind a byte that is not shown. -/
def next (p : Place) (b : UInt8) : Place :=
  if b = 0x18 ∨ b = 0x1a then .outside
  else if b = 0x1b then .escape
  else
    match p with
    | .outside => .outside
    | .escape =>
      if isWithin b 0x20 0x2f then .escapeTail
      else if b = 0x5b then .head .start false
      else if b = 0x50 then .head .start true
      else if b = 0x5d then .command
      else if b = 0x58 ∨ b = 0x5e ∨ b = 0x5f then .string
      else if isWithin b 0x30 0x7e then .outside
      else .escape
    | .escapeTail => if isWithin b 0x30 0x7e then .outside else .escapeTail
    | .head stage device =>
      if isWithin b 0x40 0x7e then afterHead device false
      else if isWithin b 0x20 0x2f then .head .tail device
      else if isWithin b 0x30 0x3f then
        match stage with
        | .start => .head .parameters device
        | .parameters => if b ≤ 0x3b then .head stage device else afterHead device true
        | .tail => afterHead device true
      else .head stage device
    | .spoiled => if isWithin b 0x40 0x7e then .outside else .spoiled
    | .command => if b = 7 then .outside else .command
    | .string => if b = 0x9c then .outside else .string

end Place

/-- The bytes that are shown. `owed` are the bytes of a character that are still to come; while
`showing`, the place is where skipping would resume. -/
def shown (p : Place) (showing : Bool) : (owed : Nat) → Bytes → Bytes
  | _, [] => []
  | owed + 1, b :: rest => b :: shown p showing owed rest
  | 0, b :: rest =>
    if isShown b && (showing || p.shows b) then
      b :: shown (if b < 0x80 then p else .outside) true (continuations b) rest
    else shown (p.next b) false 0 rest

end ScriptWasm.Terminal

namespace ScriptWasm

/-- The text without what only a terminal would obey. -/
def Text.withoutControls (s : String) : String :=
  (textOf? (Terminal.shown .outside false 0 (bytesOf s))).getD ""

end ScriptWasm
