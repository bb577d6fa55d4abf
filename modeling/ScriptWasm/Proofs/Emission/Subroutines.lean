import Mathlib.Data.List.Forall2
import ScriptWasm.Proofs.Emission.Description

/-!
# Subroutines have one number

A subroutine is named in several places, and each of them has a number for it: code calls its
function, the table of handlers holds the function at a position, an event is given that position,
and metadata and the section of names list both. The numbers come from separate counts, of what the
first walk declares, of the bodies that are emitted, and of the tables that are laid out. They agree
because emitting code only looks at the tables: imports come to lie in front of all functions before
any code is emitted, and no import is added afterwards.

For code this is a statement about all references in it. Walking over the code in order, one meets
the subroutines that the statements of the routine use, in the order of the statements, and nothing
else.
-/

namespace ScriptWasm

open Wasm

/-! ## References in code -/

namespace Wasm

/-- How code refers to a subroutine: it calls a function, or hands a number to an imported one. -/
inductive Reference where
  | call (function : Nat)
  | pass (argument : UInt32) (function : Nat)
deriving DecidableEq, Repr

/-- The constants that lie on the stack behind an instruction, given those in front of it. -/
def Instr.constants (before : List UInt32) : Instr → List UInt32
  | .i32Const x => x :: before
  | _ => []

mutual

/-- The references of an instruction, given the constants in front of it: calls of functions that
are not imported, and calls of imported functions with one constant. -/
def Instr.references (imported : Nat) (before : List UInt32) : Instr → List Reference
  | .call f =>
    if imported ≤ f then [.call f]
    else match before with
      | [x] => [.pass x f]
      | _ => []
  | .block _ body => instrsReferences imported [] body
  | .loop _ body => instrsReferences imported [] body
  | .ifThen _ yes => instrsReferences imported [] yes
  | .ifElse _ yes no => instrsReferences imported [] yes ++ instrsReferences imported [] no
  | .tryTable _ _ body => instrsReferences imported [] body
  | .returnCall f => if imported ≤ f then [.call f] else []
  | _ => []

/-- The references of code, in order. -/
def instrsReferences (imported : Nat) (before : List UInt32) : List Instr → List Reference
  | [] => []
  | i :: rest =>
    i.references imported before ++ instrsReferences imported (i.constants before) rest

end

theorem instrsReferences_append (imported : Nat) (before : List UInt32) (code code' : List Instr) :
    instrsReferences imported before (code ++ code') =
      instrsReferences imported before code ++
        instrsReferences imported (code.foldl Instr.constants before) code' := by
  induction code generalizing before with
  | nil => rfl
  | cons i rest ih =>
    rw [List.cons_append, instrsReferences, instrsReferences, ih, List.append_assoc,
      List.foldl_cons]

end Wasm

/-! ## Uses in programs -/

/-- How a statement uses a subroutine: it calls it, or makes it the handler of an event. -/
inductive SubroutineUse where
  | call (name : String)
  | handle (type event name : String)
deriving DecidableEq, Repr

def Target.uses (value : Expr) : Target → List SubroutineUse
  | .event type name =>
    match value with
    | .variable handler => [.handle type name handler]
    | _ => []
  | _ => []

mutual

/-- The subroutines that a statement uses, in order. A subroutine inside it is a routine of its
own. -/
def Stmt.uses : Stmt → List SubroutineUse
  | .assign target value _ => target.uses value
  | .callSub name _ => [.call name]
  | .cond _ body arms otherwise _ => stmtsUses body ++ (armsUses arms ++ stmtsUses otherwise)
  | .while _ body _ => stmtsUses body
  | .for _ _ _ _ body _ => stmtsUses body
  | _ => []

def stmtsUses : List Stmt → List SubroutineUse
  | [] => []
  | s :: rest => s.uses ++ stmtsUses rest

def armsUses : List Arm → List SubroutineUse
  | [] => []
  | .mk _ body :: rest => stmtsUses body ++ armsUses rest

end

theorem flatMap_segments_uses (body : List Stmt) :
    (segments body).flatMap stmtsUses = stmtsUses body := by
  induction body with
  | nil => rfl
  | cons s rest ih =>
    cases hs : s.labelName? with
    | none =>
      obtain ⟨first, others, h⟩ := List.exists_cons_of_ne_nil (segments_ne_nil rest)
      rw [h, List.flatMap_cons] at ih
      rw [segments_cons_of_none hs h, List.flatMap_cons, stmtsUses, stmtsUses, List.append_assoc,
        ih]
    | some name =>
      obtain ⟨span, rfl⟩ := Stmt.eq_label hs
      rw [segments, List.flatMap_cons, ih]
      rfl

/-! ## Code makes the uses that statements make -/

namespace Setting

/-- A reference is what a use is turned into. -/
def Resolves (w : Setting) : SubroutineUse → Reference → Prop
  | .call name, .call f =>
    ∃ i, w.tables.subroutine name = .ok i ∧ f = w.tables.function (.subroutine i)
  | .handle type event name, .pass x f =>
    ∃ i e, w.tables.subroutine name = .ok i ∧ x = UInt32.ofNat i ∧
      w.host.event type event = .ok e ∧ w.tables.importIndex? e.subscribe = some f
  | _, _ => False

/-- Code makes the given uses in order, and leaves no constant on the stack. -/
structure Makes (w : Setting) (code : List Instr) (uses : List SubroutineUse) : Prop where
  references :
    List.Forall₂ w.Resolves uses (instrsReferences w.tables.imports.length [] code)
  constants : code.foldl Instr.constants [] = []

namespace Makes

variable {w : Setting} {code code' : List Instr} {uses uses' : List SubroutineUse}

theorem nil : w.Makes [] [] := ⟨.nil, rfl⟩

theorem append (h : w.Makes code uses) (h' : w.Makes code' uses') :
    w.Makes (code ++ code') (uses ++ uses') where
  references := by
    rw [instrsReferences_append, h.constants]
    exact List.rel_append h.references h'.references
  constants := by rw [List.foldl_append, h.constants, h'.constants]

/-- Code that makes no use of subroutines. -/
theorem append_none (h : w.Makes code uses) (h' : w.Makes code' []) :
    w.Makes (code ++ code') uses := by
  have := h.append h'
  rwa [List.append_nil] at this

theorem none_append (h : w.Makes code []) (h' : w.Makes code' uses) :
    w.Makes (code ++ code') uses := h.append h'

/-- An instruction that refers to nothing, and is no constant. -/
theorem cons {i : Instr} (hi : i.references w.tables.imports.length [] = [])
    (hconstants : i.constants [] = []) (h : w.Makes code uses) : w.Makes (i :: code) uses where
  references := by
    rw [instrsReferences, hi, hconstants]
    exact h.references
  constants := by rw [List.foldl_cons, hconstants, h.constants]

/-- An instruction around code makes the uses of the code. -/
theorem around {i : Instr} (h : w.Makes code uses)
    (hi : i.references w.tables.imports.length [] =
      instrsReferences w.tables.imports.length [] code)
    (hconstants : i.constants [] = []) : w.Makes [i] uses where
  references := by
    rw [instrsReferences, hi, instrsReferences, List.append_nil]
    exact h.references
  constants := hconstants

theorem block (h : w.Makes code uses) : w.Makes [.block .empty code] uses :=
  h.around (by rw [Instr.references]) rfl

theorem loop (h : w.Makes code uses) : w.Makes [.loop .empty code] uses :=
  h.around (by rw [Instr.references]) rfl

theorem ifThen (h : w.Makes code uses) : w.Makes [.ifThen .empty code] uses :=
  h.around (by rw [Instr.references]) rfl

theorem ifElse {type : BlockType} (h : w.Makes code uses) (h' : w.Makes code' uses') :
    w.Makes [.ifElse type code code'] (uses ++ uses') where
  references := by
    rw [instrsReferences, Instr.references, instrsReferences, List.append_nil]
    exact List.rel_append h.references h'.references
  constants := rfl

end Makes

variable {w : Setting} {before after : Locals}

/-! ### Expressions -/

/-- A call of an imported function is no call of a routine, since routines come behind all
imports. -/
theorem call_of_callImport {source : ImportRef} {i : Instr} (h : w.callImport source = .ok i) :
    ∃ f, i = .call f ∧ f < w.tables.imports.length ∧ w.tables.importIndex? source = some f := by
  obtain ⟨f, hf, rfl⟩ := map_eq_ok_iff.mp h
  rw [Tables.imported_eq_ok_iff] at hf
  have hfound := hf
  rw [Tables.importIndex?, List.findIdx?_eq_some_iff_getElem] at hfound
  exact ⟨f, rfl, hfound.1, hf⟩

theorem Makes.call {source : ImportRef} {i : Instr} (h : w.callImport source = .ok i)
    {code : List Instr} {uses : List SubroutineUse} (hcode : w.Makes code uses) :
    w.Makes (i :: code) uses := by
  obtain ⟨f, rfl, hlt, -⟩ := call_of_callImport h
  exact .cons (by simp [Instr.references, Nat.not_le.mpr hlt]) rfl hcode

theorem makes_callImport {source : ImportRef} {i : Instr} (h : w.callImport source = .ok i) :
    w.Makes [i] [] := .call h .nil

theorem makes_lowerNumber {x : Binary64} {code : List Instr} (hcode : w.lowerNumber x = .ok code) :
    w.Makes code [] := by
  simp only [lowerNumber, bind_eq_ok_iff, pure_eq_ok_iff] at hcode
  obtain ⟨call, hcall, rfl⟩ := hcode
  exact .cons rfl rfl (makes_callImport hcall)

mutual

/-- Expressions do not use subroutines. -/
theorem makes_lowerExpr {e : Expr} {code : List Instr} (hcode : w.lowerExpr e = .ok code) :
    w.Makes code [] := by
  match e with
  | .number x =>
    rw [lowerExpr] at hcode
    exact makes_lowerNumber hcode
  | .text text =>
    simp only [lowerExpr, bind_eq_ok_iff, pure_eq_ok_iff] at hcode
    obtain ⟨extent, -, call, hcall, rfl⟩ := hcode
    obtain ⟨f, rfl, hlt, -⟩ := call_of_callImport hcall
    -- a text is two constants, and so is not taken for the position of a subroutine
    refine ⟨?_, rfl⟩
    simp [instrsReferences, Instr.references, Instr.constants, Nat.not_le.mpr hlt]
  | .variable name =>
    simp only [lowerExpr, bind_eq_ok_iff, pure_eq_ok_iff] at hcode
    obtain ⟨i, -, rfl⟩ := hcode
    exact .cons rfl rfl .nil
  | .index array indices =>
    simp only [lowerExpr, bind_eq_ok_iff, pure_eq_ok_iff] at hcode
    obtain ⟨i, -, path, hpath, rfl⟩ := hcode
    exact .cons rfl rfl (makes_lowerPath hpath)
  | .property type name =>
    simp only [lowerExpr, bind_eq_ok_iff, pure_eq_ok_iff] at hcode
    obtain ⟨source, -, call, hcall, rfl⟩ := hcode
    exact makes_callImport hcall
  | .call type method args =>
    simp only [lowerExpr, bind_eq_ok_iff, pure_eq_ok_iff] at hcode
    obtain ⟨m, -, acode, hacode, call, hcall, rfl⟩ := hcode
    exact (makes_lowerArgs hacode).append (makes_callImport hcall)
  | .binary op left right =>
    simp only [lowerExpr, bind_eq_ok_iff, pure_eq_ok_iff] at hcode
    obtain ⟨lcode, hl, rcode, hr, call, hcall, rfl⟩ := hcode
    exact ((makes_lowerExpr hl).append (makes_lowerExpr hr)).append (makes_callImport hcall)
  | .negate operand =>
    simp only [lowerExpr, bind_eq_ok_iff, pure_eq_ok_iff] at hcode
    obtain ⟨ocode, ho, call, hcall, rfl⟩ := hcode
    exact (makes_lowerExpr ho).append (makes_callImport hcall)

theorem makes_lowerArgs {es : List Expr} {code : List Instr} (hcode : w.lowerArgs es = .ok code) :
    w.Makes code [] := by
  match es with
  | [] =>
    cases hcode
    exact .nil
  | e :: rest =>
    simp only [lowerArgs, bind_eq_ok_iff, pure_eq_ok_iff] at hcode
    obtain ⟨ecode, hecode, rcode, hrcode, rfl⟩ := hcode
    exact (makes_lowerExpr hecode).append (makes_lowerArgs hrcode)

theorem makes_lowerPath {es : List Expr} {code : List Instr} (hcode : w.lowerPath es = .ok code) :
    w.Makes code [] := by
  match es with
  | [] =>
    cases hcode
    exact .nil
  | e :: rest =>
    simp only [lowerPath, bind_eq_ok_iff, pure_eq_ok_iff] at hcode
    obtain ⟨ecode, hecode, get, hget, rcode, hrcode, rfl⟩ := hcode
    exact (makes_lowerExpr hecode).append (.call hget (makes_lowerPath hrcode))

end

theorem makes_lowerCondition {e : Expr} {code : List Instr}
    (hcode : w.lowerCondition e = .ok code) : w.Makes code [] := by
  simp only [lowerCondition, bind_eq_ok_iff, pure_eq_ok_iff] at hcode
  obtain ⟨ecode, he, call, hcall, rfl⟩ := hcode
  exact (makes_lowerExpr he).append (makes_callImport hcall)

/-! ### Assignments -/

theorem makes_lowerStore {value : Expr} {indices : List Expr} {array : Nat} {code : List Instr}
    (hcode : w.lowerStore array value indices before = .ok (code, after)) : w.Makes code [] := by
  induction indices generalizing array before code with
  | nil => cases hcode
  | cons first rest ih =>
    cases rest with
    | nil =>
      simp only [lowerStore, Lowering.bind_eq_ok_iff, Lowering.lift_eq_ok_iff,
        Lowering.pure_eq_ok_iff] at hcode
      obtain ⟨icode, _, ⟨hi, rfl⟩, vcode, _, ⟨hv, rfl⟩, set, _, ⟨hset, rfl⟩, heq⟩ := hcode
      cases heq
      have hload : w.Makes (.localGet array :: icode) [] := .cons rfl rfl (makes_lowerExpr hi)
      exact (hload.append (makes_lowerExpr hv)).append (makes_callImport hset)
    | cons second rest =>
      simp only [lowerStore, Lowering.bind_eq_ok_iff, Lowering.lift_eq_ok_iff,
        Lowering.addLocal_eq_ok_iff, Lowering.pure_eq_ok_iff] at hcode
      obtain ⟨position, _, ⟨rfl, rfl⟩, inner, _, ⟨rfl, rfl⟩, icode, _, ⟨hi, rfl⟩, get, _,
        ⟨hg, rfl⟩, scode, _, hs, set, _, ⟨hset, rfl⟩, heq⟩ := hcode
      cases heq
      have hfetch : w.Makes [.localSet before.length, .localGet array, .localGet before.length,
          get, .localSet (before ++ [ValType.i32]).length, .localGet array,
          .localGet before.length] [] :=
        .cons rfl rfl (.cons rfl rfl (.cons rfl rfl (.call hg
          (.cons rfl rfl (.cons rfl rfl (.cons rfl rfl .nil))))))
      exact (((makes_lowerExpr hi).append hfetch).append (ih hs)).append (makes_callImport hset)

/-- An assignment to an event hands over the position of the handler. -/
theorem makes_lowerAssign {value : Expr} {target : Target} {code : List Instr}
    (hcode : w.lowerAssign value target before = .ok (code, after)) :
    w.Makes code (target.uses value) := by
  match target with
  | .variable name =>
    simp only [lowerAssign, Lowering.bind_eq_ok_iff, Lowering.lift_eq_ok_iff,
      Lowering.pure_eq_ok_iff] at hcode
    obtain ⟨vcode, _, ⟨hv, rfl⟩, slot, _, -, heq⟩ := hcode
    cases heq
    exact (makes_lowerExpr hv).append (.cons rfl rfl .nil)
  | .index array indices =>
    simp only [lowerAssign, Lowering.bind_eq_ok_iff, Lowering.lift_eq_ok_iff,
      Lowering.addLocal_eq_ok_iff, Lowering.pure_eq_ok_iff] at hcode
    obtain ⟨slot, before, -, whole, _, -, store, _, hstore, heq⟩ := hcode
    cases heq
    have hload : w.Makes [.globalGet slot, .localSet whole] [] :=
      .cons rfl rfl (.cons rfl rfl .nil)
    exact (hload.append (makes_lowerStore hstore)).append (.cons rfl rfl .nil)
  | .property type name =>
    simp only [lowerAssign, Lowering.bind_eq_ok_iff, Lowering.lift_eq_ok_iff,
      Lowering.pure_eq_ok_iff] at hcode
    obtain ⟨source, _, -, vcode, _, ⟨hv, rfl⟩, call, _, ⟨hcall, rfl⟩, heq⟩ := hcode
    cases heq
    exact (makes_lowerExpr hv).append (makes_callImport hcall)
  | .event type name =>
    cases value with
    | «variable» handler =>
      simp only [lowerAssign, Lowering.bind_eq_ok_iff, Lowering.lift_eq_ok_iff,
        Lowering.pure_eq_ok_iff] at hcode
      obtain ⟨e, _, ⟨he, rfl⟩, index, _, ⟨hindex, rfl⟩, call, _, ⟨hcall, rfl⟩, heq⟩ := hcode
      cases heq
      obtain ⟨f, rfl, hlt, hf⟩ := call_of_callImport hcall
      have hreferences : instrsReferences w.tables.imports.length []
          [.i32Const (UInt32.ofNat index), .call f] = [.pass (UInt32.ofNat index) f] := by
        simp [instrsReferences, Instr.references, Instr.constants, Nat.not_le.mpr hlt]
      refine ⟨?_, rfl⟩
      rw [hreferences]
      exact .cons ⟨index, e, hindex, rfl, he, hf⟩ .nil
    | _ => simp [lowerAssign] at hcode

/-! ### Loops -/

theorem makes_compareEnd {op : Operator} {slot stop : Nat} {code : List Instr}
    (hcode : w.compareEnd op slot stop = .ok code) : w.Makes code [] := by
  simp only [compareEnd, bind_eq_ok_iff, pure_eq_ok_iff] at hcode
  obtain ⟨call, hcall, rfl⟩ := hcode
  exact .cons rfl rfl (.cons rfl rfl (makes_callImport hcall))

theorem makes_lowerDescending {by_ flag : Nat} {code : List Instr}
    (hcode : w.lowerDescending by_ before = .ok ((flag, code), after)) : w.Makes code [] := by
  simp only [lowerDescending, Lowering.bind_eq_ok_iff, Lowering.lift_eq_ok_iff,
    Lowering.addLocal_eq_ok_iff, Lowering.pure_eq_ok_iff] at hcode
  obtain ⟨_, _, -, zero, _, ⟨hzero, -⟩, less, _, ⟨hless, -⟩, call, _, ⟨hcall, -⟩, heq⟩ := hcode
  cases heq
  have hload : w.Makes (.localGet by_ :: zero) [] := .cons rfl rfl (makes_lowerNumber hzero)
  exact hload.append (.call hless (.call hcall (.cons rfl rfl .nil)))

theorem makes_lowerBounds {slot stop by_ : Nat} {start last : Expr} {step : Option Expr}
    {enter condition : List Instr}
    (hcode : w.lowerBounds slot stop by_ start last step before = .ok ((enter, condition), after)) :
    w.Makes enter [] ∧ w.Makes condition [] := by
  cases step with
  | none =>
    simp only [lowerBounds, Lowering.bind_eq_ok_iff, Lowering.lift_eq_ok_iff,
      Lowering.pure_eq_ok_iff] at hcode
    obtain ⟨scode, _, ⟨hs, -⟩, lcode, _, ⟨hl, -⟩, ncode, _, ⟨hn, -⟩, up, _, ⟨hup, -⟩,
      call, _, ⟨hcall, -⟩, heq⟩ := hcode
    cases heq
    exact ⟨(((makes_lowerExpr hs).append (.cons rfl rfl (makes_lowerExpr hl))).append
        (.cons rfl rfl (makes_lowerNumber hn))).append (.cons rfl rfl .nil),
      (makes_compareEnd hup).append (makes_callImport hcall)⟩
  | some step =>
    simp only [lowerBounds, Lowering.bind_eq_ok_iff, Lowering.lift_eq_ok_iff,
      Lowering.pure_eq_ok_iff] at hcode
    obtain ⟨scode, _, ⟨hs, -⟩, lcode, _, ⟨hl, -⟩, bcode, _, ⟨hb, -⟩, ⟨flag, descending⟩, _,
      hdescending, down, _, ⟨hdown, -⟩, up, _, ⟨hup, -⟩, call, _, ⟨hcall, -⟩, heq⟩ := hcode
    cases heq
    have hchoose : w.Makes [.ifElse (.value .i32) down up] [] :=
      .ifElse (makes_compareEnd hdown) (makes_compareEnd hup)
    exact ⟨(((makes_lowerExpr hs).append (.cons rfl rfl (makes_lowerExpr hl))).append
        (.cons rfl rfl (makes_lowerExpr hb))).append
        (.cons rfl rfl (makes_lowerDescending hdescending)),
      .cons rfl rfl (hchoose.append (makes_callImport hcall))⟩

theorem makes_whileLoop {condition body : List Instr} {uses : List SubroutineUse}
    (hcondition : w.Makes condition []) (hbody : w.Makes body uses) :
    w.Makes [whileLoop condition body] uses := by
  have htest : w.Makes (condition ++ [.i32Eqz, .brIf 1]) [] :=
    hcondition.append (.cons rfl rfl (.cons rfl rfl .nil))
  exact ((htest.none_append hbody).append_none (.cons rfl rfl .nil)).loop.block

theorem makes_conditional {yes : List Instr} {no : Option (List Instr)}
    {uses uses' : List SubroutineUse} (hyes : w.Makes yes uses) (hno : w.Makes (no.getD []) uses') :
    w.Makes [conditional yes no] (uses ++ uses') := by
  cases no with
  | none =>
    obtain rfl : uses' = [] := List.forall₂_nil_right_iff.mp hno.references
    rw [List.append_nil]
    exact hyes.ifThen
  | some code => exact hyes.ifElse hno

/-! ### Statements -/

mutual

theorem makes_lowerStmt {s : Scope} {st : Stmt} {before after : Locals} {code : List Instr}
    (hcode : w.lowerStmt s st before = .ok (code, after)) : w.Makes code st.uses := by
  match st with
  | .assign target value _ =>
    rw [lowerStmt] at hcode
    exact makes_lowerAssign hcode
  | .call type method args _ =>
    simp only [lowerStmt, Lowering.bind_eq_ok_iff, Lowering.lift_eq_ok_iff,
      Lowering.pure_eq_ok_iff] at hcode
    obtain ⟨m, _, -, acode, _, ⟨hacode, -⟩, call, _, ⟨hcall, -⟩, heq⟩ := hcode
    cases heq
    refine (makes_lowerArgs hacode).append (.call hcall ?_)
    split
    · exact .cons rfl rfl .nil
    · exact .nil
  | .cond condition body arms otherwise _ =>
    simp only [lowerStmt, Lowering.bind_eq_ok_iff, Lowering.lift_eq_ok_iff,
      Lowering.pure_eq_ok_iff] at hcode
    obtain ⟨ccode, _, ⟨hcondition, -⟩, yes, _, hyes, no, _, hno, heq⟩ := hcode
    cases heq
    have hotherwise (s' : Scope) (before after : Locals) (no : Option (List Instr))
        (h : w.lowerOtherwise otherwise s' before = .ok (no, after)) :
        w.Makes (no.getD []) (stmtsUses otherwise) := by
      rw [lowerOtherwise] at h
      split at h
      · rename_i hempty
        cases h
        rw [List.isEmpty_iff.mp hempty]
        exact .nil
      · obtain ⟨ocode, _, hocode, heq⟩ := Lowering.map_eq_ok_iff.mp h
        cases heq
        exact makes_lowerStmts hocode
    exact (makes_lowerCondition hcondition).none_append
      (makes_conditional (makes_lowerStmts hyes) (makes_lowerArms hotherwise hno))
  | .while condition body _ =>
    simp only [lowerStmt, Lowering.bind_eq_ok_iff, Lowering.lift_eq_ok_iff,
      Lowering.pure_eq_ok_iff] at hcode
    obtain ⟨ccode, _, ⟨hcondition, -⟩, bcode, _, hbody, heq⟩ := hcode
    cases heq
    exact makes_whileLoop (makes_lowerCondition hcondition) (makes_lowerStmts hbody)
  | .for name start last step body _ =>
    simp only [lowerStmt, Lowering.bind_eq_ok_iff, Lowering.lift_eq_ok_iff,
      Lowering.addLocal_eq_ok_iff, Lowering.pure_eq_ok_iff] at hcode
    obtain ⟨slot, _, -, stop, _, -, by_, _, -, ⟨enter, condition⟩, _, hbounds, bcode, _, hbody,
      call, _, ⟨hcall, -⟩, heq⟩ := hcode
    cases heq
    obtain ⟨henter, hcondition⟩ := makes_lowerBounds hbounds
    have hnext : w.Makes [.globalGet slot, .localGet by_, call, .globalSet slot] [] :=
      .cons rfl rfl (.cons rfl rfl (.call hcall (.cons rfl rfl .nil)))
    exact henter.none_append
      (makes_whileLoop hcondition ((makes_lowerStmts hbody).append_none hnext))
  | .goto name _ =>
    simp only [lowerStmt, Lowering.bind_eq_ok_iff, Lowering.lift_eq_ok_iff,
      Lowering.pure_eq_ok_iff] at hcode
    obtain ⟨segment, _, -, ⟨selector, depth⟩, _, -, heq⟩ := hcode
    cases heq
    exact ⟨.nil, rfl⟩
  | .callSub name _ =>
    simp only [lowerStmt, Lowering.bind_eq_ok_iff, Lowering.lift_eq_ok_iff,
      Lowering.pure_eq_ok_iff] at hcode
    obtain ⟨index, _, ⟨hindex, -⟩, heq⟩ := hcode
    cases heq
    have hbehind : w.tables.imports.length ≤ w.tables.function (.subroutine index) :=
      Nat.le_add_right ..
    refine ⟨?_, rfl⟩
    have hreferences : instrsReferences w.tables.imports.length []
        [.call (w.tables.function (.subroutine index))] =
          [.call (w.tables.function (.subroutine index))] := by
      simp [instrsReferences, Instr.references, hbehind]
    rw [hreferences]
    exact .cons ⟨index, hindex, rfl⟩ .nil
  | .label .. =>
    cases hcode
    exact .nil
  | .sub .. =>
    cases hcode
    exact .nil
  | .empty .. =>
    cases hcode
    exact .nil

theorem makes_lowerStmts {s : Scope} {body : List Stmt} {before after : Locals}
    {code : List Instr} (hcode : w.lowerStmts s body before = .ok (code, after)) :
    w.Makes code (stmtsUses body) := by
  match body with
  | [] =>
    cases hcode
    exact .nil
  | st :: rest =>
    simp only [lowerStmts, Lowering.bind_eq_ok_iff, Lowering.pure_eq_ok_iff] at hcode
    obtain ⟨first, _, hfirst, others, _, hothers, heq⟩ := hcode
    cases heq
    exact (makes_lowerStmt hfirst).append (makes_lowerStmts hothers)

/-- The arms of a conditional come in front of what is behind them. -/
theorem makes_lowerArms {s : Scope} {arms : List Arm} {before after : Locals}
    {no : Option (List Instr)} {otherwise : Scope → Lowering (Option (List Instr))}
    {uses : List SubroutineUse}
    (hotherwise : ∀ s' before after no, otherwise s' before = .ok (no, after) →
      w.Makes (no.getD []) uses)
    (hcode : w.lowerArms s arms otherwise before = .ok (no, after)) :
    w.Makes (no.getD []) (armsUses arms ++ uses) := by
  match arms with
  | [] =>
    rw [lowerArms] at hcode
    exact hotherwise _ _ _ _ hcode
  | .mk condition body :: rest =>
    simp only [lowerArms, Lowering.bind_eq_ok_iff, Lowering.lift_eq_ok_iff,
      Lowering.pure_eq_ok_iff] at hcode
    obtain ⟨ccode, _, ⟨hcondition, -⟩, yes, _, hyes, no, _, hno, heq⟩ := hcode
    cases heq
    rw [armsUses, List.append_assoc]
    exact (makes_lowerCondition hcondition).none_append
      (makes_conditional (makes_lowerStmts hyes) (makes_lowerArms hotherwise hno))

end

/-! ### Routines -/

theorem makes_nestSegments {inner : List Instr} {codes : List (List Instr)}
    {parts : List (List Stmt)} {uses : List SubroutineUse} (hinner : w.Makes inner uses)
    (hcodes : List.Forall₂ (fun code part ↦ w.Makes code (stmtsUses part)) codes parts) :
    w.Makes (nestSegments inner codes) (uses ++ parts.flatMap stmtsUses) := by
  induction hcodes generalizing inner uses with
  | nil =>
    rw [List.flatMap_nil, List.append_nil]
    exact hinner
  | cons hcode _ ih =>
    rw [List.flatMap_cons, ← List.append_assoc]
    exact ih (hinner.block.append hcode)

theorem makes_lowerSegments {s : Scope} {parts : List (List Stmt)} {codes : List (List Instr)}
    (hcodes : w.lowerSegments s parts before = .ok (codes, after)) :
    List.Forall₂ (fun code part ↦ w.Makes code (stmtsUses part)) codes parts := by
  induction parts generalizing before codes with
  | nil =>
    cases hcodes
    exact .nil
  | cons part rest ih =>
    simp only [lowerSegments, Lowering.bind_eq_ok_iff, Lowering.pure_eq_ok_iff] at hcodes
    obtain ⟨first, _, hfirst, others, _, hothers, heq⟩ := hcodes
    cases heq
    exact .cons (makes_lowerStmts hfirst) (ih hothers)

/-- The code of a routine refers to the subroutines that its statements use, in order. -/
theorem makes_routineCode {routine : Routine} {body : List Stmt} {code : Code}
    (hcode : w.routineCode routine body = .ok code) : w.Makes code.body (stmtsUses body) := by
  obtain ⟨n, -, hbody⟩ := w.locals_routineCode hcode
  obtain ⟨-, hbody⟩ | ⟨codes, hcodes, hinstrs⟩ := w.lowerRoutine_cases hbody
  · exact makes_lowerStmts hbody
  · have hchoose : w.Makes [.localGet ([] : Locals).length,
        .brTable (List.range (segments body).length) ((segments body).length - 1)] [] :=
      .cons rfl rfl (.cons rfl rfl .nil)
    have hsegments := makes_nestSegments hchoose (makes_lowerSegments hcodes)
    rw [List.nil_append, flatMap_segments_uses] at hsegments
    rw [hinstrs]
    exact hsegments.loop

end Setting

/-! ## The tables of subroutines -/

namespace Tables

variable {h : Host} {p : Program} {t : Tables}

/-- No two subroutines have one name, and their positions are words. -/
structure IsIndexed (t : Tables) : Prop where
  nodup : t.subroutines.Nodup
  length_le : t.subroutines.length ≤ indexLimit

theorem IsIndexed.meet {q q' : Tables × Routine} {d : Demand} (ht : q.1.IsIndexed)
    (h : meet q d = .ok q') : q'.1.IsIndexed := by
  have hmeets := meets_of_meet h
  cases hmeets with
  | @enter t r name hnew =>
    -- the ways to meet a demand do not tell that there is room for one more
    simp only [Tables.meet, bind_eq_ok_iff, pure_eq_ok_iff, declareSubroutine] at h
    obtain ⟨_, hdeclare, -⟩ := h
    split at hdeclare
    · cases hdeclare
    · split at hdeclare
      · rename_i hroom
        refine ⟨List.nodup_append.mpr ⟨ht.nodup, List.nodup_singleton name, ?_⟩, ?_⟩
        · rintro _ hmem _ hname rfl
          exact hnew (List.mem_singleton.mp hname ▸ hmem)
        · rw [List.length_append]
          exact hroom
      · cases hdeclare
  | _ => exact ⟨ht.nodup, ht.length_le⟩

theorem IsIndexed.meetAll {ds : List Demand} {q q' : Tables × Routine} (ht : q.1.IsIndexed)
    (h : meetAll q ds = .ok q') : q'.1.IsIndexed :=
  meetAll_induction (fun _ q ↦ q.1.IsIndexed) IsIndexed.meet ht h

theorem isIndexed_of_ofProgram (ht : ofProgram h p = .ok t) : t.IsIndexed := by
  obtain ⟨-, -, hm⟩ := ofProgram_eq_ok_iff.mp ht
  have hblank (t : Tables) (hb : t.IsBlank) (names : List String) :
      (t.withSlots names).IsIndexed := by
    have hsubroutines : (t.withSlots names).subroutines = [] := hb.subroutines
    exact ⟨hsubroutines ▸ .nil, hsubroutines ▸ Nat.zero_le _⟩
  exact (hblank _ (isBlank_start h.operators) p.symbols.names).meetAll hm

theorem getElem?_of_subroutine {name : String} {i : Nat} (h : t.subroutine name = .ok i) :
    t.subroutines[i]? = some name := by
  rw [subroutine] at h
  split at h
  · rename_i j hj
    cases h
    rw [List.idxOf?, List.findIdx?_eq_some_iff_getElem] at hj
    obtain ⟨hlt, heq, -⟩ := hj
    rw [List.getElem?_eq_getElem hlt, eq_of_beq heq]
  · cases h

/-- A module names the function of a subroutine by the subroutine. -/
theorem lookup_functionNames {i : Nat} {name : String} (h : t.subroutines[i]? = some name) :
    t.functionNames.lookup (t.function (.subroutine i)) = some name := by
  have hentry : (t.function (.subroutine i) == t.function .entry) = false := by
    rw [beq_eq_false_iff_ne, function, function, Routine.position, Routine.position]
    omega
  have hinjective : Function.Injective fun i ↦ t.function (.subroutine i) := by
    intro i j hij
    simp only [function, Routine.position] at hij
    omega
  have hsubroutines := lookup_zipIdx hinjective t.subroutines 0 i
  rw [Nat.zero_add, h] at hsubroutines
  -- the functions in front of it are imported ones and the one to start in
  refine (lookup_append_of_ne fun e he ↦ ?_).trans ?_
  · obtain ⟨⟨entry, j⟩, hj, rfl⟩ := List.mem_map.mp he
    have hlt : j < t.imports.length := (List.mem_zipIdx' hj).1
    have hne : t.function (.subroutine i) ≠ j := by
      rw [function, Routine.position]
      omega
    exact hne
  · rw [List.lookup_cons, hentry]
    exact hsubroutines

/-- The function of a routine is its code. -/
theorem callees_layout_routine {codes : List Code} {metadata : Metadata} {routine : Routine}
    {code : Code} (hfirst : t.signatures[0]? = some ⟨[], []⟩)
    (hcode : codes[routine.position]? = some code)
    (hcount : routine.position ≤ t.subroutines.length) :
    (t.layout codes metadata).callees[t.function routine]?.join = some (.code ⟨[], []⟩ code) := by
  -- any embedder will do: none has a say in the functions of the module itself
  have e : Embedder Unit := ⟨fun _ _ _ ↦ ([], ())⟩
  rw [← Module.callee?_link _ e]
  exact callee?_routine e hfirst hcode hcount

end Tables

/-! ## One number -/

/-- A reference is to the subroutine that is used. The function of a subroutine lies behind all
imports and the routine that the program starts in; an event is given the position of its handler,
by a call of the function that subscribes to it. -/
def Program.Refers (p : Program) (h : Host) (md : Module) : SubroutineUse → Reference → Prop
  | .call name, .call f =>
    ∃ i, (subroutineNames p.body)[i]? = some name ∧ f = md.imports.length + 1 + i
  | .handle type event name, .pass x f =>
    ∃ i e m, (subroutineNames p.body)[i]? = some name ∧ x.toNat = i ∧
      h.registry.event? type event = some e ∧ md.imports[f]? = some m ∧
      e.subscribe = ⟨m.module, m.field⟩
  | _, _ => False

/-- A function of a module is a routine of a program: its code is what the statements of the routine
are lowered to with the given tables, and its references are to the subroutines that the statements
use, in order. -/
def Program.HasRoutine (p : Program) (h : Host) (t : Tables) (md : Module) (f : Nat)
    (routine : Routine) (body : List Stmt) : Prop :=
  ∃ code, md.callees[f]?.join = some (.code ⟨[], []⟩ code) ∧
    Setting.routineCode ⟨h, t⟩ routine body = .ok code ∧
    List.Forall₂ (p.Refers h md) (stmtsUses body)
      (instrsReferences md.imports.length [] code.body)

namespace Tables

variable {h : Host} {p : Program} {t : Tables} {codes : List Code} {metadata : Metadata}

theorem refers_of_resolves (ht : ofProgram h p = .ok t) {use : SubroutineUse} {r : Reference}
    (hr : Setting.Resolves ⟨h, t⟩ use r) : p.Refers h (t.layout codes metadata) use r := by
  have hnames := (isFinished_of_ofProgram ht).subroutines
  have hcount : (t.layout codes metadata).imports.length = t.imports.length := by
    rw [imports_layout, List.length_map]
  match use, r, hr with
  | .call name, .call f, ⟨i, hi, hf⟩ =>
    refine ⟨i, hnames ▸ getElem?_of_subroutine hi, ?_⟩
    have hbehind : f = t.imports.length + (i + 1) := hf
    rw [hcount]
    omega
  | .handle type event name, .pass x f, ⟨i, e, hi, hx, he, hf⟩ =>
    have hlt : i < UInt32.size :=
      Nat.lt_of_lt_of_le (lt_of_subroutine hi) (isIndexed_of_ofProgram ht).length_le
    obtain ⟨entry, hentry, hsource, -⟩ := find?_of_importIndex? hf
    refine ⟨i, e, ⟨entry.source.module, entry.source.field, .function entry.signature⟩,
      hnames ▸ getElem?_of_subroutine hi, ?_, Host.event_eq_ok_iff.mp he, ?_, hsource.symm⟩
    · rw [hx, UInt32.toNat_ofNat_of_lt' hlt]
    · rw [imports_layout, List.getElem?_map, hentry]
      rfl

/-- Code at the position of a routine is the function of the routine. -/
theorem hasRoutine_layout (ht : ofProgram h p = .ok t) {routine : Routine} {body : List Stmt}
    {code : Code} (hcode : codes[routine.position]? = some code)
    (hcount : routine.position ≤ t.subroutines.length)
    (hroutine : Setting.routineCode ⟨h, t⟩ routine body = .ok code) :
    p.HasRoutine h t (t.layout codes metadata) (t.function routine) routine body := by
  have himports : (t.layout codes metadata).imports.length = t.imports.length := by
    rw [imports_layout, List.length_map]
  refine ⟨code, callees_layout_routine (signatures_of_ofProgram ht) hcode hcount, hroutine, ?_⟩
  rw [himports]
  exact (Setting.makes_routineCode hroutine).references.imp fun _ _ ↦ refers_of_resolves ht

end Tables

/-- A subroutine has one number. A module is laid out from the tables as the first walk leaves them
and from code that is emitted with them. The exported routine lies right behind the imports and is
what the program starts in. Subroutine `i` lies `i` places behind it and is lowered from its own
body; the table of handlers has its function at `i`, metadata and the section of names agree, and
whatever routine calls the subroutine or gives it to an event refers to it by these numbers. -/
theorem Host.module_numbers_subroutines {h : Host} {p : Program} {source : String} {md : Module}
    (hmodule : h.module p source = .ok md) :
    ∃ t codes, Tables.ofProgram h p = .ok t ∧ Setting.lowerProgram ⟨h, t⟩ p = .ok codes ∧
      t.layout codes (.ofTables t source) = md ∧
      md.exportedFunction? Layout.entry = some md.imports.length ∧
      p.HasRoutine h t md md.imports.length .entry p.body ∧
      (subroutineNames p.body).Nodup ∧
      ∀ i name body, (topSubroutines p.body)[i]? = some (name, body) →
        p.HasRoutine h t md (md.imports.length + 1 + i) (.subroutine i) body ∧
        md.tableAt? i = some (md.imports.length + 1 + i) ∧
        (Metadata.ofTables t source).subroutines[i]? =
          some ⟨name, md.imports.length + 1 + i, i⟩ ∧
        (md.isWritable → ∃ names, ModuleNames.ofModule? md.encode = some names ∧
          names.functions.lookup (md.imports.length + 1 + i) = some name) := by
  obtain ⟨t, codes, ht, hcodes, rfl⟩ := Host.module_eq_ok_iff.mp hmodule
  obtain ⟨⟨entry, hentry, hroutine⟩, hothers⟩ := Setting.getElem?_of_lowerProgram hcodes
  have hnames := (Tables.isFinished_of_ofProgram ht).subroutines
  have hfirst : (t.layout codes (.ofTables t source)).imports.length = t.function .entry := by
    rw [Tables.imports_layout, List.length_map]
    rfl
  rw [hfirst]
  refine ⟨t, codes, ht, hcodes, rfl, Tables.exportedFunction?_layout,
    Tables.hasRoutine_layout ht hentry (Nat.zero_le _) hroutine,
    hnames ▸ (Tables.isIndexed_of_ofProgram ht).nodup, ?_⟩
  intro i name body hsub
  obtain ⟨code, hcode, hroutine⟩ := hothers i (name, body) hsub
  have hname : t.subroutines[i]? = some name := by
    rw [hnames, subroutineNames, List.getElem?_map, hsub]
    rfl
  have hlt : i < t.subroutines.length := (List.getElem?_eq_some_iff.mp hname).1
  have hfunction : t.function .entry + 1 + i = t.function (.subroutine i) := by
    rw [Tables.function, Tables.function, Routine.position, Routine.position]
    omega
  rw [hfunction]
  refine ⟨Tables.hasRoutine_layout ht hcode hlt hroutine, Tables.tableAt?_layout hlt, ?_, ?_⟩
  · rw [Metadata.ofTables, List.getElem?_map, List.getElem?_zipIdx, hname]
    simp
  · intro hwritable
    exact ⟨_, Tables.ofModule?_encode_layout hwritable, Tables.lookup_functionNames hname⟩

/-- A host with one event. -/
def Host.timer : Host where
  registry := Registry.empty.insert
    { TypeDescriptor.bare "Timer" false with
      events := KeyTable.empty.insert "tick" ⟨"Timer", "Tick", ⟨"timer", "on_tick"⟩⟩ }
  operators := .usual "runtime"

/-- A program that uses its subroutines before they are declared, from within a loop and a
subroutine, and behind a label. -/
def Program.ticking : Program where
  symbols := ⟨["x"]⟩
  body :=
    [.assign (.event "Timer" "Tick") (.variable "tock") default,
      .while (.text "yes") [.callSub "tick" default] default,
      .label "again" default, .callSub "tock" default,
      .sub "tick" [.callSub "tock" default] default,
      .sub "tock" [.assign (.event "Timer" "Tick") (.variable "tick") default] default]

def Program.tickingTables : Tables :=
  match Tables.ofProgram .timer ticking with
  | .ok t => t
  | .error _ => .empty

def Program.tickingModule : Module :=
  match Setting.lowerProgram ⟨.timer, tickingTables⟩ ticking with
  | .ok codes => tickingTables.layout codes (.ofTables tickingTables "")
  | .error _ => []

theorem Program.ticking_module_numbers_subroutines :
    Host.timer.module ticking "" = .ok tickingModule ∧
      tickingModule.exportedFunction? Layout.entry = some 19 ∧
      tickingModule.tableAt? 1 = some 21 ∧
      (∃ t, ticking.HasRoutine .timer t tickingModule 19 .entry ticking.body ∧
        ticking.HasRoutine .timer t tickingModule 21 (.subroutine 1)
          [.assign (.event "Timer" "Tick") (.variable "tick") default]) ∧
      ∃ names, ModuleNames.ofModule? tickingModule.encode = some names ∧
        names.functions.lookup 21 = some "tock" := by
  obtain ⟨hok, himports, hwritable⟩ : (Host.timer.module ticking "").isOk ∧
      tickingModule.imports.length = 19 ∧ tickingModule.isWritable := by decide +kernel
  have hmodule : Host.timer.module ticking "" = .ok tickingModule := by
    obtain ⟨md, hmd⟩ := exists_of_isOk hok
    obtain ⟨t, codes, ht, hcodes, rfl⟩ := Host.module_eq_ok_iff.mp hmd
    rw [hmd]
    delta tickingModule tickingTables
    rw [ht]
    dsimp only
    rw [hcodes]
  obtain ⟨t, codes, -, -, -, hexport, hentry, -, hsubs⟩ :=
    Host.module_numbers_subroutines hmodule
  rw [himports] at hexport hentry hsubs
  obtain ⟨hroutine, htable, -, hnames⟩ := hsubs 1 "tock" _ rfl
  exact ⟨hmodule, hexport, htable, ⟨t, hentry, hroutine⟩, hnames hwritable⟩

end ScriptWasm
