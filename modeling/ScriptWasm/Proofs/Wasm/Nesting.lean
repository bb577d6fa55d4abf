import ScriptWasm.Wasm.Encode

/-!
# Blocks in written code

Code is a tree, and it is written as a sequence: a block is opened, and closed behind its body. What
stands at a position of the sequence is inside of those blocks that have been opened and not closed
yet. A branch counts these blocks from the innermost one, so to know where it goes is to know which
blocks are open.

No position of a sequence that comes from a tree has more closings than openings in front of it, and
behind a piece of code the same blocks are open as in front of it.
-/

namespace ScriptWasm.Wasm

/-! ## Code as a sequence -/

/-- A piece of written code. -/
inductive Token where
  | block (type : BlockType)
  | loop (type : BlockType)
  | cond (type : BlockType)
  | handler (type : BlockType) (catches : List Catch)
  /-- The second half of a conditional begins. -/
  | otherwise
  /-- The innermost block ends. -/
  | closing
  /-- An instruction without a body. -/
  | plain (instr : Instr)

mutual

/-- An instruction as it is written. -/
def Instr.tokens : Instr → List Token
  | .block type body => .block type :: (instrsTokens body ++ [.closing])
  | .loop type body => .loop type :: (instrsTokens body ++ [.closing])
  | .ifThen type yes => .cond type :: (instrsTokens yes ++ [.closing])
  | .ifElse type yes no =>
    .cond type :: (instrsTokens yes ++ .otherwise :: (instrsTokens no ++ [.closing]))
  | .tryTable type catches body => .handler type catches :: (instrsTokens body ++ [.closing])
  | i => [.plain i]

def instrsTokens : List Instr → List Token
  | [] => []
  | i :: rest => i.tokens ++ instrsTokens rest

end

theorem instrsTokens_append (code code' : List Instr) :
    instrsTokens (code ++ code') = instrsTokens code ++ instrsTokens code' := by
  induction code with
  | nil => rfl
  | cons i rest ih => rw [List.cons_append, instrsTokens, instrsTokens, ih, List.append_assoc]

theorem instrsTokens_singleton (i : Instr) : instrsTokens [i] = i.tokens := List.append_nil _

/-- The bytes of a piece. -/
def Token.encode : Token → Bytes
  | .block type => blockCode :: type.encode
  | .loop type => loopCode :: type.encode
  | .cond type => ifCode :: type.encode
  | .handler type catches => 0x1f :: type.encode ++ encodeVec Catch.encode catches
  | .otherwise => [elseCode]
  | .closing => [endCode]
  | .plain i => i.encode

theorem flatMap_closing (first : Token) (ts : List Token) :
    (first :: (ts ++ [.closing])).flatMap Token.encode =
      first.encode ++ ts.flatMap Token.encode ++ [endCode] := by
  rw [List.flatMap_cons, List.flatMap_append, List.append_assoc]
  rfl

mutual

theorem Instr.encode_eq_flatMap (i : Instr) : i.encode = i.tokens.flatMap Token.encode := by
  cases i with
  | block type body =>
    rw [Instr.tokens, flatMap_closing, ← encodeInstrs_eq_flatMap body]
    rfl
  | loop type body =>
    rw [Instr.tokens, flatMap_closing, ← encodeInstrs_eq_flatMap body]
    rfl
  | ifThen type yes =>
    rw [Instr.tokens, flatMap_closing, ← encodeInstrs_eq_flatMap yes]
    rfl
  | ifElse type yes no =>
    rw [Instr.tokens, List.flatMap_cons, List.flatMap_append, flatMap_closing,
      ← encodeInstrs_eq_flatMap yes, ← encodeInstrs_eq_flatMap no, ← List.append_assoc,
      ← List.append_assoc]
    rfl
  | tryTable type catches body =>
    rw [Instr.tokens, flatMap_closing, ← encodeInstrs_eq_flatMap body]
    rfl
  | _ => exact (List.append_nil _).symm

/-- The bytes of code are those of its pieces, one after the other. -/
theorem encodeInstrs_eq_flatMap (code : List Instr) :
    encodeInstrs code = (instrsTokens code).flatMap Token.encode := by
  match code with
  | [] => rfl
  | i :: rest =>
    rw [encodeInstrs, instrsTokens, List.flatMap_append, Instr.encode_eq_flatMap i,
      encodeInstrs_eq_flatMap rest]

end

/-! ## Open blocks -/

/-- What a piece at some position does to the blocks that are open. Blocks are known by the position
of their openings, the innermost one comes first. -/
def Token.pass? (position : Nat) : Token → List Nat → Option (List Nat)
  | .block _, opened => some (position :: opened)
  | .loop _, opened => some (position :: opened)
  | .cond _, opened => some (position :: opened)
  | .handler _ _, opened => some (position :: opened)
  | .otherwise, [] => none
  | .otherwise, inner :: outer => some (inner :: outer)
  | .closing, [] => none
  | .closing, _ :: outer => some outer
  | .plain _, opened => some opened

/-- The blocks that are open behind pieces of code, which begin at some position inside of the given
blocks. There are none if more blocks are closed than opened. -/
def openFrom (position : Nat) (opened : List Nat) : List Token → Option (List Nat)
  | [] => some opened
  | t :: rest => (t.pass? position opened).bind fun opened ↦ openFrom (position + 1) opened rest

/-- The blocks that are open behind pieces of code. -/
def openings (ts : List Token) : Option (List Nat) := openFrom 0 [] ts

theorem openFrom_append (position : Nat) (opened : List Nat) (ts ts' : List Token) :
    openFrom position opened (ts ++ ts') = (openFrom position opened ts).bind fun opened ↦
      openFrom (position + ts.length) opened ts' := by
  induction ts generalizing position opened with
  | nil => rfl
  | cons t rest ih =>
    rw [List.cons_append, openFrom, openFrom, Option.bind_assoc]
    congr 1
    funext opened'
    rw [ih, List.length_cons, Nat.add_assoc, Nat.add_comm 1]

theorem openings_append (ts ts' : List Token) :
    openings (ts ++ ts') = (openings ts).bind fun opened ↦ openFrom ts.length opened ts' := by
  rw [openings, openFrom_append, Nat.zero_add, openings]

/-- Whatever was read of code that closes no more than it opens does so too. -/
theorem isSome_openings_of_prefix {ts ts' : List Token} (h : ts <+: ts')
    (hsome : (openings ts').isSome) : (openings ts).isSome := by
  obtain ⟨rest, rfl⟩ := h
  rw [openings_append] at hsome
  exact Option.isSome_of_isSome_bind hsome

/-- A body between the opening of a block and its end leaves the blocks around it as they are. -/
theorem openFrom_closing {position inner : Nat} {opened : List Nat} {ts : List Token}
    (h : openFrom position (inner :: opened) ts = some (inner :: opened)) :
    openFrom position (inner :: opened) (ts ++ [.closing]) = some opened := by
  rw [openFrom_append, h]
  rfl

mutual

theorem Instr.openFrom_tokens (i : Instr) (position : Nat) (opened : List Nat) :
    openFrom position opened i.tokens = some opened := by
  cases i with
  | block type body => exact openFrom_closing (openFrom_instrsTokens body _ _)
  | loop type body => exact openFrom_closing (openFrom_instrsTokens body _ _)
  | ifThen type yes => exact openFrom_closing (openFrom_instrsTokens yes _ _)
  | ifElse type yes no =>
    rw [Instr.tokens, openFrom, Token.pass?, Option.bind_some, openFrom_append,
      openFrom_instrsTokens yes, Option.bind_some]
    exact openFrom_closing (openFrom_instrsTokens no _ _)
  | tryTable type catches body => exact openFrom_closing (openFrom_instrsTokens body _ _)
  | _ => rfl

/-- Behind code the same blocks are open as in front of it. -/
theorem openFrom_instrsTokens (code : List Instr) (position : Nat) (opened : List Nat) :
    openFrom position opened (instrsTokens code) = some opened := by
  match code with
  | [] => rfl
  | i :: rest =>
    rw [instrsTokens, openFrom_append, Instr.openFrom_tokens i, Option.bind_some,
      openFrom_instrsTokens rest]

end

/-- At no position of code have more blocks been closed than opened. -/
theorem isSome_openings {code : List Instr} {ts : List Token} (h : ts <+: instrsTokens code) :
    (openings ts).isSome :=
  isSome_openings_of_prefix h (by rw [openings, openFrom_instrsTokens]; rfl)

/-! ## Pieces in their place -/

/-- Pieces stand at a position of a sequence, inside of the given blocks. -/
structure StandsAt (all : List Token) (position : Nat) (opened : List Nat) (ts : List Token) :
    Prop where
  split : ∃ before after, all = before ++ (ts ++ after) ∧ before.length = position
  opened : openings (all.take position) = some opened

namespace StandsAt

variable {all ts ts' : List Token} {position : Nat} {opened : List Nat}

/-- A whole sequence stands at its beginning. -/
theorem self (all : List Token) : StandsAt all 0 [] all := ⟨⟨[], [], by simp, rfl⟩, rfl⟩

theorem left (h : StandsAt all position opened (ts ++ ts')) : StandsAt all position opened ts := by
  obtain ⟨⟨before, after, heq, hlength⟩, hopened⟩ := h
  exact ⟨⟨before, ts' ++ after, by rw [heq, List.append_assoc], hlength⟩, hopened⟩

/-- Going on behind pieces, in the blocks that are open there. -/
theorem right (h : StandsAt all position opened (ts ++ ts')) {opened' : List Nat}
    (hts : openFrom position opened ts = some opened') :
    StandsAt all (position + ts.length) opened' ts' := by
  obtain ⟨⟨before, after, rfl, rfl⟩, hopened⟩ := h
  refine ⟨⟨before ++ ts, after, by simp, by simp⟩, ?_⟩
  rw [List.take_left] at hopened
  have hsplit : before ++ (ts ++ ts' ++ after) = (before ++ ts) ++ (ts' ++ after) := by simp
  rw [hsplit, ← List.length_append, List.take_left, openings_append, hopened, Option.bind_some, hts]

theorem behind_code {code : List Instr}
    (h : StandsAt all position opened (instrsTokens code ++ ts)) :
    StandsAt all (position + (instrsTokens code).length) opened ts :=
  h.right (openFrom_instrsTokens code _ _)

/-- One piece further. -/
theorem next {t : Token} (h : StandsAt all position opened (t :: ts)) {opened' : List Nat}
    (ht : t.pass? position opened = some opened') : StandsAt all (position + 1) opened' ts := by
  have hone : StandsAt all position opened ([t] ++ ts) := h
  have hpass : openFrom position opened [t] = some opened' := by rw [openFrom, ht]; rfl
  exact hone.right hpass

end StandsAt

end ScriptWasm.Wasm
