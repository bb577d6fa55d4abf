import ScriptWasm.Proofs.Emission.Acceptance
import ScriptWasm.Proofs.Emission.Labels
import ScriptWasm.Proofs.Execution.Routines
import ScriptWasm.Proofs.Wasm.Nesting

/-!
# Where jumps go

A jump stores the number of a segment and branches to the loop around all segments. That it gets
where it should rests on three things. The number of a label is that of the segment behind it. The
loop goes on at the first instruction of the segment whose number is stored. And the branch leaves
as many blocks as are open where it stands: the depth that is passed down when a statement is
emitted is the number of blocks that are open at its place in the written code, however deeply it is
nested, so that the outermost of them, which is the loop, can be counted off.
-/

namespace ScriptWasm

open Wasm

/-! ## Going to a segment -/

namespace Wasm.Instance

variable {σ : Type} {I : Instance σ} {inner inner' : List Instr} {codes : List (List Instr)}
  {w w' : World σ} {ls ls' st' : List Value}

/-- Code that ends in the same ways can be put in the same blocks. -/
theorem runs_nestSegments_congr
    (h : ∀ r, I.Runs inner ⟨w, ls, []⟩ r ↔ I.Runs inner' ⟨w', ls', []⟩ r)
    (codes : List (List Instr)) (r : Exit × Config σ) :
    I.Runs (nestSegments inner codes) ⟨w, ls, []⟩ r ↔
      I.Runs (nestSegments inner' codes) ⟨w', ls', []⟩ r := by
  induction codes generalizing inner inner' with
  | nil => exact h r
  | cons code rest ih =>
    refine ih fun r' ↦ ?_
    simp only [runs_cons_iff, steps_block_iff, h]

/-- A branch out of some of the blocks goes on at the segment behind them, as if the code began
there. -/
theorem runs_nestSegments_iff {k : Nat} {segment : List Instr}
    (h : I.Runs inner ⟨w, ls, []⟩ (.branch k, ⟨w', ls', st'⟩)) (hk : codes[k]? = some segment)
    (r : Exit × Config σ) :
    I.Runs (nestSegments inner codes) ⟨w, ls, []⟩ r ↔
      I.Runs (nestSegments segment (codes.drop (k + 1))) ⟨w', ls', []⟩ r := by
  induction codes generalizing inner k with
  | nil => cases hk
  | cons code rest ih =>
    have hblock : I.Steps (.block .empty inner) ⟨w, ls, []⟩
        (leave 0 [] (.branch k, ⟨w', ls', st'⟩)) := .block rfl h
    cases k with
    | succ k => exact ih (.cons_branch hblock) hk
    | zero =>
      obtain rfl : code = segment := Option.some.inj hk
      refine runs_nestSegments_congr (fun r' ↦ ⟨fun hruns ↦ ?_, fun hruns ↦ .cons hblock hruns⟩) _ r
      -- The block ends in one way only, which is to go on behind it.
      obtain ⟨c, hi, hrest⟩ | ⟨j, c, hi, -⟩ := hruns.of_cons
      · cases (Runs.one hi).unique (Runs.one hblock)
        exact hrest
      · cases (Runs.one hi).unique (Runs.one hblock)

end Wasm.Instance

/-- What the loop begins with: it looks at a local for the segment to go to. -/
def chooseSegment (count : Nat) : List Instr :=
  [.localGet 0, .brTable (List.range count) (count - 1)]

theorem runs_chooseSegment_iff {σ : Type} {I : Instance σ} {codes : List (List Instr)}
    {segment : List Instr} {world : World σ} {ls : List Value} {x : UInt32}
    (hget : ls[0]? = some (.i32 x)) (hx : codes[x.toNat]? = some segment) (r : Exit × Config σ) :
    I.Runs (nestSegments (chooseSegment codes.length) codes) ⟨world, ls, []⟩ r ↔
      I.Runs (nestSegments segment (codes.drop (x.toNat + 1))) ⟨world, ls, []⟩ r := by
  have hlt := (List.getElem?_eq_some_iff.mp hx).1
  rw [← UInt32.ofNat_toNat (x := x)] at hget
  have hchoose : I.Runs (chooseSegment codes.length) ⟨world, ls, []⟩
      (.branch x.toNat, ⟨world, ls, []⟩) := Implements.runs_choose hget hlt x.toNat_lt
  exact Instance.runs_nestSegments_iff hchoose hx r

/-! ## Segments in written code -/

theorem instrsTokens_nestSegments (inner : List Instr) (codes : List (List Instr)) :
    instrsTokens (nestSegments inner codes) =
      List.replicate codes.length (.block .empty) ++ (instrsTokens inner ++
        codes.flatMap fun code ↦ .closing :: instrsTokens code) := by
  induction codes generalizing inner with
  | nil => simp [nestSegments]
  | cons code rest ih =>
    rw [nestSegments, ih, instrsTokens, Instr.tokens, List.length_cons, List.replicate_succ']
    simp

theorem openFrom_replicate (count position : Nat) (opened : List Nat) :
    ∃ blocks, blocks.length = count ∧
      openFrom position opened (List.replicate count (.block .empty)) =
        some (blocks ++ opened) := by
  induction count generalizing position opened with
  | zero => exact ⟨[], rfl, rfl⟩
  | succ count ih =>
    obtain ⟨blocks, hlength, hopen⟩ := ih (position + 1) (position :: opened)
    refine ⟨blocks ++ [position], by rw [List.length_append, hlength]; rfl, ?_⟩
    rw [List.replicate_succ, openFrom, Token.pass?, Option.bind_some, hopen, List.append_assoc]
    rfl

/-! ## Statements in written code -/

mutual

/-- A statement, and the statements inside it whose code stands in its code. The body of a
subroutine is not among them. -/
def Stmt.emitted : Stmt → List Stmt
  | .cond condition body arms otherwise span =>
    .cond condition body arms otherwise span ::
      (stmtsEmitted body ++ (armsEmitted arms ++ stmtsEmitted otherwise))
  | .while condition body span => .while condition body span :: stmtsEmitted body
  | .for name start stop step body span =>
    .for name start stop step body span :: stmtsEmitted body
  | .assign target value span => [.assign target value span]
  | .call type method args span => [.call type method args span]
  | .goto name span => [.goto name span]
  | .label name span => [.label name span]
  | .sub name body span => [.sub name body span]
  | .callSub name span => [.callSub name span]
  | .empty span => [.empty span]

def stmtsEmitted : List Stmt → List Stmt
  | [] => []
  | st :: rest => st.emitted ++ stmtsEmitted rest

def armsEmitted : List Arm → List Stmt
  | [] => []
  | .mk _ body :: rest => stmtsEmitted body ++ armsEmitted rest

end

/-- What code of a routine with labels stands in, inside of some open blocks. The outermost one is
the loop that segments are run from, and the first local is for the next segment. -/
def Scope.within (routine : Routine) (opened : List Nat) : Scope :=
  ⟨routine, opened.length, some ⟨0, 1⟩⟩

theorem Scope.opened_within (routine : Routine) (opened : List Nat) (position : Nat) :
    (within routine opened).opened = within routine (position :: opened) := rfl

namespace Setting

/-- The code of a statement stands at a position of the written code, inside of the given blocks.
-/
structure Emission (w : Setting) (all : List Token) (routine : Routine) (st : Stmt)
    (position : Nat) (opened : List Nat) (code : List Instr) : Prop where
  /-- The depth that was passed down is the number of blocks that are open. -/
  lowered : ∃ before after, w.lowerStmt (.within routine opened) st before = .ok (code, after)
  stands : StandsAt all position opened (instrsTokens code)
  /-- Behind the code the same blocks are open. -/
  behind : StandsAt all (position + (instrsTokens code).length) opened []
  /-- The outermost block is the one that is opened first of all. -/
  outermost : opened.getLast? = some 0
  /-- A jump stores the segment of its label, and branches to the outermost block. -/
  goto : ∀ name span, st = .goto name span → ∃ segment depth,
    w.tables.label routine name = .ok segment ∧
    code = [.i32Const (UInt32.ofNat segment), .localSet 0, .br depth] ∧ opened[depth]? = some 0

/-- The code of statements stands between two positions, in their order. -/
inductive EmitsAll (w : Setting) (all : List Token) (routine : Routine) :
    Nat → Nat → List Stmt → Prop
  | nil {first last : Nat} (hle : first ≤ last) : EmitsAll w all routine first last []
  | cons {first position last : Nat} {st : Stmt} {rest : List Stmt} {opened : List Nat}
      {code : List Instr} (hle : first ≤ position)
      (h : w.Emission all routine st position opened code)
      (hrest : EmitsAll w all routine position last rest) :
      EmitsAll w all routine first last (st :: rest)

variable {w : Setting} {all : List Token} {routine : Routine}

namespace EmitsAll

variable {first first' mid last last' : Nat} {sts sts' : List Stmt}

theorem mono (h : w.EmitsAll all routine first last sts) (hfirst : first' ≤ first)
    (hlast : last ≤ last') : w.EmitsAll all routine first' last' sts := by
  induction h generalizing first' with
  | nil hle => exact .nil (Nat.le_trans hfirst (Nat.le_trans hle hlast))
  | cons hle hst _ ih => exact .cons (Nat.le_trans hfirst hle) hst (ih (Nat.le_refl _) hlast)

theorem append (h : w.EmitsAll all routine first mid sts)
    (h' : w.EmitsAll all routine mid last sts') :
    w.EmitsAll all routine first last (sts ++ sts') := by
  induction h with
  | nil hle => exact h'.mono hle (Nat.le_refl _)
  | cons hle hst _ ih => exact .cons hle hst (ih h')

end EmitsAll

/-- Where a statement stands is known from its code. -/
theorem Emission.of_lowerStmt {st : Stmt} {position : Nat} {opened : List Nat} {code : List Instr}
    {before after : Locals}
    (hcode : w.lowerStmt (.within routine opened) st before = .ok (code, after))
    (hstands : StandsAt all position opened (instrsTokens code))
    (hlast : opened.getLast? = some 0) : w.Emission all routine st position opened code := by
  have hbehind : StandsAt all position opened (instrsTokens code ++ []) := by
    rwa [List.append_nil]
  refine ⟨⟨before, after, hcode⟩, hstands, hbehind.behind_code, hlast, ?_⟩
  rintro name span rfl
  simp only [lowerStmt, Lowering.bind_eq_ok_iff, Lowering.lift_eq_ok_iff,
    Lowering.pure_eq_ok_iff] at hcode
  obtain ⟨segment, _, ⟨hlabel, -⟩, ⟨selector, depth⟩, _, ⟨hjump, -⟩, heq⟩ := hcode
  cases heq
  obtain ⟨rfl, rfl⟩ : 0 = selector ∧ opened.length - 1 = depth :=
    Prod.mk.inj (Except.ok.inj hjump)
  refine ⟨segment, _, hlabel, rfl, ?_⟩
  rw [← List.getLast?_eq_getElem?, hlast]

/-- The outermost block stays the outermost one inside of another block. -/
theorem getLast?_cons_of_eq {opened : List Nat} {outermost : Nat}
    (h : opened.getLast? = some outermost) (position : Nat) :
    (position :: opened).getLast? = some outermost := by
  rw [List.getLast?_cons, h]
  rfl

variable {position : Nat} {opened : List Nat} {sts sts' : List Stmt}

/-- The arms of a conditional stand in one more block. -/
theorem emitsAll_conditional {yes : List Instr} {no : Option (List Instr)}
    (hstands : StandsAt all position opened (conditional yes no).tokens)
    (hyes : ∀ p, StandsAt all p (position :: opened) (instrsTokens yes) →
      w.EmitsAll all routine p (p + (instrsTokens yes).length) sts)
    (hno : ∀ p, StandsAt all p (position :: opened) (instrsTokens (no.getD [])) →
      w.EmitsAll all routine p (p + (instrsTokens (no.getD [])).length) sts') :
    w.EmitsAll all routine position (position + (conditional yes no).tokens.length)
      (sts ++ sts') := by
  cases no with
  | none =>
    rw [conditional, Instr.tokens] at hstands ⊢
    have hbody := hstands.next rfl
    have hend : StandsAt all _ (position :: opened) ([] ++ [.closing]) := hbody.behind_code
    refine ((hyes _ hbody.left).append (hno _ hend.left)).mono (Nat.le_succ _) ?_
    simp only [Option.getD_none, instrsTokens, List.length_nil, List.length_cons,
      List.length_append]
    omega
  | some code =>
    rw [conditional, Instr.tokens] at hstands ⊢
    have hbody := hstands.next rfl
    have hother := hbody.behind_code.next rfl
    refine ((hyes _ hbody.left).append
      ((hno _ hother.left).mono (Nat.le_succ _) (Nat.le_refl _))).mono (Nat.le_succ _) ?_
    simp only [Option.getD_some, List.length_cons, List.length_append]
    omega

/-- The body of a loop stands in two more blocks. -/
theorem emitsAll_whileLoop {condition body : List Instr}
    (hstands : StandsAt all position opened (whileLoop condition body).tokens)
    (hbody : ∀ p, StandsAt all p ((position + 1) :: position :: opened) (instrsTokens body) →
      w.EmitsAll all routine p (p + (instrsTokens body).length) sts) :
    w.EmitsAll all routine position (position + (whileLoop condition body).tokens.length) sts := by
  have htokens : (whileLoop condition body).tokens =
      .block .empty :: .loop .empty :: (instrsTokens (condition ++ [.i32Eqz, .brIf 1]) ++
        (instrsTokens body ++ [.plain (.br 0), .closing, .closing])) := by
    rw [whileLoop, Instr.tokens, instrsTokens_singleton, Instr.tokens]
    simp [instrsTokens_append, instrsTokens, Instr.tokens]
  rw [htokens] at hstands ⊢
  have hloop := (hstands.next rfl).next rfl
  refine (hbody _ hloop.behind_code.left).mono (by omega) ?_
  simp only [List.length_cons, List.length_append]
  omega

mutual

/-- A statement and those inside it stand where the code of the statement stands. -/
theorem emitsAll_lowerStmt {st : Stmt} {position : Nat} {opened : List Nat} {code : List Instr}
    {before after : Locals}
    (hcode : w.lowerStmt (.within routine opened) st before = .ok (code, after))
    (hstands : StandsAt all position opened (instrsTokens code))
    (hlast : opened.getLast? = some 0) :
    w.EmitsAll all routine position (position + (instrsTokens code).length) st.emitted := by
  have hself := Emission.of_lowerStmt hcode hstands hlast
  have hsingle : w.EmitsAll all routine position (position + (instrsTokens code).length) [st] :=
    .cons (Nat.le_refl _) hself (.nil (Nat.le_add_right _ _))
  match st with
  | .cond condition body arms otherwise _ =>
    simp only [lowerStmt, Lowering.bind_eq_ok_iff, Lowering.lift_eq_ok_iff,
      Lowering.pure_eq_ok_iff] at hcode
    obtain ⟨ccode, _, ⟨hcondition, -⟩, yes, _, hyes, no, _, hno, heq⟩ := hcode
    cases heq
    rw [instrsTokens_append, instrsTokens_singleton] at hstands ⊢
    have hotherwise (p : Nat) (opened : List Nat) (hlast : opened.getLast? = some 0)
        (before after : Locals) (no : Option (List Instr))
        (h : w.lowerOtherwise otherwise (.within routine opened) before = .ok (no, after))
        (hstands : StandsAt all p opened (instrsTokens (no.getD []))) :
        w.EmitsAll all routine p (p + (instrsTokens (no.getD [])).length)
          (stmtsEmitted otherwise) := by
      rw [lowerOtherwise] at h
      split at h
      · rename_i hempty
        cases h
        rw [List.isEmpty_iff.mp hempty]
        exact .nil (Nat.le_add_right _ _)
      · obtain ⟨ocode, _, hocode, heq⟩ := Lowering.map_eq_ok_iff.mp h
        cases heq
        exact emitsAll_lowerStmts hocode hstands hlast
    rw [Scope.opened_within _ _ (position + (instrsTokens ccode).length)] at hyes hno
    have hblock := emitsAll_conditional hstands.behind_code
      (fun p hp ↦ emitsAll_lowerStmts hyes hp (getLast?_cons_of_eq hlast _))
      (fun p hp ↦ emitsAll_lowerArms hotherwise hno hp (getLast?_cons_of_eq hlast _))
    refine .cons (Nat.le_refl _) hself (hblock.mono (Nat.le_add_right _ _) ?_)
    rw [List.length_append, Nat.add_assoc]
  | .while condition body _ =>
    simp only [lowerStmt, Lowering.bind_eq_ok_iff, Lowering.lift_eq_ok_iff,
      Lowering.pure_eq_ok_iff] at hcode
    obtain ⟨ccode, _, ⟨hcondition, -⟩, bcode, _, hbody, heq⟩ := hcode
    cases heq
    rw [instrsTokens_singleton] at hstands ⊢
    rw [Scope.opened_within _ _ position, Scope.opened_within _ _ (position + 1)] at hbody
    refine .cons (Nat.le_refl _) hself (emitsAll_whileLoop hstands fun p hp ↦ ?_)
    exact emitsAll_lowerStmts hbody hp (getLast?_cons_of_eq (getLast?_cons_of_eq hlast _) _)
  | .for name start last step body _ =>
    simp only [lowerStmt, Lowering.bind_eq_ok_iff, Lowering.lift_eq_ok_iff,
      Lowering.addLocal_eq_ok_iff, Lowering.pure_eq_ok_iff] at hcode
    obtain ⟨slot, _, -, stop, _, -, by_, _, -, ⟨enter, condition⟩, _, hbounds, bcode, _, hbody,
      call, _, ⟨hcall, -⟩, heq⟩ := hcode
    cases heq
    rw [instrsTokens_append, instrsTokens_singleton] at hstands ⊢
    rw [Scope.opened_within _ _ (position + (instrsTokens enter).length),
      Scope.opened_within _ _ (position + (instrsTokens enter).length + 1)] at hbody
    have hloop : w.EmitsAll all routine (position + (instrsTokens enter).length) _
        (stmtsEmitted body) := emitsAll_whileLoop hstands.behind_code fun p hp ↦ by
      rw [instrsTokens_append] at hp ⊢
      refine (emitsAll_lowerStmts hbody hp.left
        (getLast?_cons_of_eq (getLast?_cons_of_eq hlast _) _)).mono (Nat.le_refl _) ?_
      rw [List.length_append]
      omega
    refine .cons (Nat.le_refl _) hself (hloop.mono (Nat.le_add_right _ _) ?_)
    rw [List.length_append, Nat.add_assoc]
  | .assign .. => exact hsingle
  | .call .. => exact hsingle
  | .goto .. => exact hsingle
  | .callSub .. => exact hsingle
  | .label .. => exact hsingle
  | .sub .. => exact hsingle
  | .empty .. => exact hsingle

theorem emitsAll_lowerStmts {body : List Stmt} {position : Nat} {opened : List Nat}
    {code : List Instr} {before after : Locals}
    (hcode : w.lowerStmts (.within routine opened) body before = .ok (code, after))
    (hstands : StandsAt all position opened (instrsTokens code))
    (hlast : opened.getLast? = some 0) :
    w.EmitsAll all routine position (position + (instrsTokens code).length)
      (stmtsEmitted body) := by
  match body with
  | [] =>
    exact .nil (Nat.le_add_right _ _)
  | st :: rest =>
    simp only [lowerStmts, Lowering.bind_eq_ok_iff, Lowering.pure_eq_ok_iff] at hcode
    obtain ⟨first, _, hfirst, others, _, hothers, heq⟩ := hcode
    cases heq
    rw [instrsTokens_append] at hstands
    rw [instrsTokens_append, List.length_append, ← Nat.add_assoc]
    exact (emitsAll_lowerStmt hfirst hstands.left hlast).append
      (emitsAll_lowerStmts hothers hstands.behind_code hlast)

/-- The arms of a conditional come in front of what is behind them. -/
theorem emitsAll_lowerArms {arms : List Arm} {position : Nat} {opened : List Nat}
    {before after : Locals} {no : Option (List Instr)}
    {otherwise : Scope → Lowering (Option (List Instr))} {sts : List Stmt}
    (hotherwise : ∀ p opened, opened.getLast? = some 0 → ∀ before after no,
      otherwise (.within routine opened) before = .ok (no, after) →
      StandsAt all p opened (instrsTokens (no.getD [])) →
      w.EmitsAll all routine p (p + (instrsTokens (no.getD [])).length) sts)
    (hcode : w.lowerArms (.within routine opened) arms otherwise before = .ok (no, after))
    (hstands : StandsAt all position opened (instrsTokens (no.getD [])))
    (hlast : opened.getLast? = some 0) :
    w.EmitsAll all routine position (position + (instrsTokens (no.getD [])).length)
      (armsEmitted arms ++ sts) := by
  match arms with
  | [] =>
    rw [lowerArms] at hcode
    exact hotherwise _ _ hlast _ _ _ hcode hstands
  | .mk condition body :: rest =>
    simp only [lowerArms, Lowering.bind_eq_ok_iff, Lowering.lift_eq_ok_iff,
      Lowering.pure_eq_ok_iff] at hcode
    obtain ⟨ccode, _, ⟨hcondition, -⟩, yes, _, hyes, no, _, hno, heq⟩ := hcode
    cases heq
    rw [Option.getD_some, instrsTokens_append, instrsTokens_singleton] at hstands ⊢
    rw [Scope.opened_within _ _ (position + (instrsTokens ccode).length)] at hyes hno
    have hblock := emitsAll_conditional hstands.behind_code
      (fun p hp ↦ emitsAll_lowerStmts hyes hp (getLast?_cons_of_eq hlast _))
      (fun p hp ↦ emitsAll_lowerArms hotherwise hno hp (getLast?_cons_of_eq hlast _))
    rw [armsEmitted, List.append_assoc, List.length_append, ← Nat.add_assoc]
    exact hblock.mono (Nat.le_add_right _ _) (Nat.le_refl _)

end

/-- Segments stand one after the other, each in one block less than the one before it. -/
theorem emitsAll_lowerSegments {parts : List (List Stmt)} {codes : List (List Instr)}
    {before after : Locals} {position : Nat} {blocks opened : List Nat}
    (hcode : w.lowerSegments (.within routine opened) parts before = .ok (codes, after))
    (hstands : StandsAt all position (blocks ++ opened)
      (codes.flatMap fun code ↦ .closing :: instrsTokens code))
    (hblocks : blocks.length = parts.length) (hlast : opened.getLast? = some 0) :
    w.EmitsAll all routine position
      (position + (codes.flatMap fun code ↦ .closing :: instrsTokens code).length)
      (parts.flatMap stmtsEmitted) := by
  induction parts generalizing before codes position blocks with
  | nil => exact .nil (Nat.le_add_right _ _)
  | cons part rest ih =>
    simp only [lowerSegments, Lowering.bind_eq_ok_iff, Lowering.pure_eq_ok_iff] at hcode
    obtain ⟨first, _, hfirst, others, _, hothers, heq⟩ := hcode
    cases heq
    cases blocks with
    | nil => cases hblocks
    | cons block blocks =>
      have hlength : blocks.length = rest.length := Nat.succ.inj hblocks
      have hscope : { Scope.within routine opened with depth := opened.length + rest.length } =
          Scope.within routine (blocks ++ opened) := by
        rw [Scope.within, Scope.within, List.length_append, hlength, Nat.add_comm]
      have hlast' : (blocks ++ opened).getLast? = some 0 := by
        rw [List.getLast?_append, hlast]
        rfl
      rw [List.flatMap_cons, List.cons_append] at hstands
      have hnext := hstands.next rfl
      refine .mono (.append (emitsAll_lowerStmts (hscope ▸ hfirst) hnext.left hlast')
        (ih hothers hnext.behind_code hlength)) (Nat.le_succ _) ?_
      rw [List.flatMap_cons, List.length_append, List.length_cons]
      omega

/-! ## The code of a routine -/

/-- The code of a routine with labels: a loop that goes to one of the segments. -/
structure Dispatches (w : Setting) (routine : Routine) (body : List Stmt) (code : List Instr)
    (codes : List (List Instr)) : Prop where
  length : codes.length = (segments body).length
  /-- Every segment has its code. It stands in one block for itself and for each segment behind
  it. -/
  segment : ∀ k part, (segments body)[k]? = some part → ∃ segment before after,
    codes[k]? = some segment ∧
    w.lowerStmts ⟨routine, codes.length - k, some ⟨0, 1⟩⟩ part before = .ok (segment, after)
  loop : code = [.loop .empty (nestSegments (chooseSegment codes.length) codes)]
  /-- The loop goes on at the beginning of the segment whose number the local holds. -/
  chosen : ∀ {σ : Type} (I : Instance σ) (world : World σ) (ls : List Value) (x : UInt32)
    (segment : List Instr), ls[0]? = some (.i32 x) → codes[x.toNat]? = some segment →
    ∀ r, I.Runs (nestSegments (chooseSegment codes.length) codes) ⟨world, ls, []⟩ r ↔
      I.Runs (nestSegments segment (codes.drop (x.toNat + 1))) ⟨world, ls, []⟩ r
  /-- The pieces of the code are what is written, one after the other. -/
  written : encodeInstrs code = (instrsTokens code).flatMap Token.encode
  /-- At no position of the code have more blocks been closed than opened. -/
  balanced : ∀ ts, ts <+: instrsTokens code → (openings ts).isSome
  /-- Every statement in a segment stands in as many blocks as are open, and jumps leave all but the
  loop. -/
  emitted : w.EmitsAll (instrsTokens code) routine 0 (instrsTokens code).length
    ((segments body).flatMap stmtsEmitted)

/-- The code of single segments. -/
theorem getElem?_lowerSegments {scope : Scope} {parts : List (List Stmt)}
    {codes : List (List Instr)} {before after : Locals}
    (h : w.lowerSegments scope parts before = .ok (codes, after)) {k : Nat} {part : List Stmt}
    (hk : parts[k]? = some part) :
    ∃ code before after, codes[k]? = some code ∧
      w.lowerStmts { scope with depth := scope.depth + (parts.length - (k + 1)) } part before =
        .ok (code, after) := by
  obtain ⟨mid, -, hdrop⟩ := lowerSegments_drop h k
  obtain ⟨hlt, rfl⟩ := List.getElem?_eq_some_iff.mp hk
  rw [List.drop_eq_getElem_cons hlt] at hdrop
  simp only [lowerSegments, Lowering.bind_eq_ok_iff, Lowering.pure_eq_ok_iff] at hdrop
  obtain ⟨first, _, hfirst, others, _, -, heq⟩ := hdrop
  refine ⟨first, mid, _, ?_, by rwa [List.length_drop] at hfirst⟩
  rw [← List.head?_drop, ← (Prod.mk.inj heq).1]
  rfl

theorem dispatches_of_routineCode {body : List Stmt} {code : Code}
    (hcode : w.routineCode routine body = .ok code) (hlabels : labelNames body ≠ []) :
    ∃ codes, w.Dispatches routine body code.body codes := by
  obtain ⟨count, -, hbody⟩ := w.locals_routineCode hcode
  have hparts := length_segments body
  have hsome : 0 < (labelNames body).length := List.length_pos_iff.mpr hlabels
  obtain ⟨⟨part, hpart⟩, -⟩ | ⟨codes, hcodes, hinstrs⟩ := w.lowerRoutine_cases hbody
  · rw [hpart, List.length_singleton] at hparts
    omega
  · have hlength := length_lowerSegments hcodes
    rw [← hlength] at hinstrs
    refine ⟨codes, hlength, fun k part hk ↦ ?_, hinstrs, fun I world ls x segment hget hx ↦
      runs_chooseSegment_iff hget hx, encodeInstrs_eq_flatMap _, fun ts ↦ isSome_openings, ?_⟩
    · have hlt := (List.getElem?_eq_some_iff.mp hk).1
      obtain ⟨segment, before, after, hsegment, hlowered⟩ := getElem?_lowerSegments hcodes hk
      refine ⟨segment, before, after, hsegment, ?_⟩
      have hdepth : codes.length - k = 1 + ((segments body).length - (k + 1)) := by omega
      rw [hdepth]
      exact hlowered
    · have htokens : instrsTokens code.body = .loop .empty ::
          ((List.replicate codes.length (.block .empty) ++
            (instrsTokens (chooseSegment codes.length) ++
              codes.flatMap fun code ↦ .closing :: instrsTokens code)) ++ [.closing]) := by
        rw [hinstrs, instrsTokens_singleton, Instr.tokens, instrsTokens_nestSegments]
        rfl
      have hself := StandsAt.self (instrsTokens code.body)
      nth_rewrite 2 [htokens] at hself
      -- The loop and the blocks of all segments are open where the first segment is chosen.
      obtain ⟨blocks, hblocks, hopen⟩ := openFrom_replicate codes.length 1 [0]
      have hchoose := (hself.next rfl).left.right hopen
      refine (emitsAll_lowerSegments hcodes hchoose.behind_code (hblocks.trans hlength) rfl).mono
        (Nat.zero_le _) ?_
      simp only [htokens, List.length_cons, List.length_append, List.length_replicate]
      omega

end Setting

/-- Jumps reach their labels. The number that the first walk gives to a label is that of the segment
behind it; the code of the routine goes to the segment whose number is stored; and every jump in it
stores the number of its label and goes back to the loop. -/
theorem Program.jumps_reach_labels {h : Host} {p : Program} {t t₀ : Tables} {routine : Routine}
    {body : List Stmt} {code : Code} (ht : Tables.ofProgram h p = .ok t)
    (henter : Tables.Enters h p routine body t₀)
    (hcode : Setting.routineCode ⟨h, t⟩ routine body = .ok code) (hlabels : labelNames body ≠ []) :
    (∀ before name span rest, body = before ++ .label name span :: rest → ∃ number t₁ t₂,
      t₀.prepareStmts h (.top routine) before = .ok t₁ ∧
      t₁.declareLabel routine name = .ok (number, t₂) ∧ t.label routine name = .ok number ∧
      (segments body).take number = segments before ∧
      (segments body).drop number = segments rest) ∧
    ∃ codes, Setting.Dispatches ⟨h, t⟩ routine body code.body codes :=
  ⟨fun _ _ _ _ hbody ↦ henter.numbers_label ht hbody,
    Setting.dispatches_of_routineCode hcode hlabels⟩

/-- A body with jumps in both directions from within blocks. -/
def Program.walk : List Stmt :=
  [.label "a" default,
    .while (.variable "x")
      [.cond (.variable "x") [.goto "b" default] [.mk (.variable "x") [.goto "a" default]] []
        default] default,
    .label "b" default, .goto "a" default]

/-- A program with labels of the same names in and around a subroutine. -/
def Program.wandering : Program where
  symbols := ⟨["x"]⟩
  body :=
    [.label "b" default, .sub "walk" walk default, .label "a" default,
      .cond (.variable "x") [.goto "b" default] [] [] default]

def Program.wanderingTables : Tables :=
  match Tables.ofProgram .console wandering with
  | .ok t => t
  | .error _ => .empty

theorem Program.wandering_jumps_reach_labels :
    Tables.ofProgram .console wandering = .ok wanderingTables ∧
    (∃ t₀, Tables.Enters .console wandering (.subroutine 0) walk t₀) ∧
    (∃ number, wanderingTables.label (.subroutine 0) "b" = .ok number ∧
      (segments walk).drop number = segments [.goto "a" default]) ∧
    ∃ code codes, Setting.routineCode ⟨.console, wanderingTables⟩ (.subroutine 0) walk = .ok code ∧
      Setting.Dispatches ⟨.console, wanderingTables⟩ (.subroutine 0) walk code.body codes := by
  have ht : Tables.ofProgram .console wandering = .ok wanderingTables := by decide +kernel
  have hok : (Setting.routineCode ⟨.console, wanderingTables⟩ (.subroutine 0) walk).isOk := by
    decide +kernel
  obtain ⟨code, hcode⟩ := exists_of_isOk hok
  have hsplit : wandering.body = [.label "b" default] ++ .sub "walk" walk default ::
      [.label "a" default, .cond (.variable "x") [.goto "b" default] [] [] default] := rfl
  obtain ⟨t₀, henter⟩ : ∃ t₀, Tables.Enters .console wandering (.subroutine 0) walk t₀ :=
    ⟨_, .subroutine rfl hsplit rfl rfl⟩
  obtain ⟨hnumbers, codes, hdispatches⟩ := jumps_reach_labels ht henter hcode (by decide)
  obtain ⟨number, -, -, -, -, hlabel, -, hdrop⟩ :=
    hnumbers (walk.take 2) "b" default [.goto "a" default] rfl
  exact ⟨ht, ⟨t₀, henter⟩, ⟨number, hlabel, hdrop⟩, code, codes, hcode, hdispatches⟩

end ScriptWasm
