import Mathlib.Data.Option.Basic
import ScriptWasm.Wasm.Typing

/-!
# Typing rules for emitted code

Checking computes the stack behind an instruction from the stack in front of it. Here that is turned
into rules for the instructions that are emitted. Code that falls through has a type: it does the
same to every stack that its parameters are on top of. Code that may jump has none, because what is
checked behind a jump has no bottom; of such code only as much is said as is needed between
statements, that nothing is left on the stack of its block.
-/

namespace ScriptWasm.Wasm

/-! ## What fits itself -/

namespace TypeSpace

theorem heapMatches_self (s : TypeSpace) (t : HeapType) : s.heapMatches t t := by
  cases t with
  | kind k => simp [heapMatches, HeapKind.isBelow]
  | index i => simp [heapMatches, isAtMost]

theorem valMatches_self (s : TypeSpace) (t : ValType) : s.valMatches t t := by
  cases t with
  | ref t => simp [valMatches, refMatches, heapMatches_self]
  | _ => simp [valMatches]

end TypeSpace

namespace Operands

variable {space : TypeSpace} {s : Operands}

@[simp] theorem push_nil (s : Operands) : s.push [] = s := rfl

theorem push_append (s : Operands) (ts us : List ValType) :
    s.push (ts ++ us) = (s.push ts).push us := by
  simp [push]

theorem popOne_push (t : ValType) : (s.push [t]).popOne space t = some s := by
  have hfit : Operand.isFit space (.known t) t := space.valMatches_self t
  simp [push, popOne, popAny, hfit]

@[simp] theorem pop_nil : s.pop space [] = some s := rfl

/-- What has been pushed can be popped. -/
theorem pop_push (ts : List ValType) : (s.push ts).pop space ts = some s := by
  obtain ⟨us, rfl⟩ : ∃ us, ts = us.reverse := ⟨ts.reverse, by simp⟩
  induction us generalizing s with
  | nil => rfl
  | cons u us ih =>
    rw [List.reverse_cons, push_append, pop, List.reverse_append, List.reverse_singleton,
      List.singleton_append, List.foldlM_cons, popOne_push]
    exact ih

theorem apply_push (space : TypeSpace) (s : Operands) (t : FuncType) :
    (s.push t.params).apply space t = some (s.push t.results) := by
  rw [apply, pop_push, Option.map_some]

theorem isExactly_push (b : Bool) (ts : List ValType) :
    isExactly space (push ⟨[], b⟩ ts) ts := by
  rw [isExactly, pop_push]
  rfl

end Operands

/-! ## Types of code -/

/-- Code that starts a block with its parameters ends it with its results. -/
def HasType (c : Context) (labels : List (List ValType)) (ins outs : List ValType)
    (code : List Instr) : Prop :=
  ∃ s, checkInstrs c labels (.push .empty ins) code = some s ∧ s.isExactly c.types outs

/-- Code takes its parameters from the stack and leaves its results, whatever is below them. -/
def Transforms (c : Context) (labels : List (List ValType)) (ins outs : List ValType)
    (code : List Instr) : Prop :=
  ∀ s : Operands, checkInstrs c labels (s.push ins) code = some (s.push outs)

/-- Code leaves nothing on the stack of its block, or never falls through. -/
def IsNeutral (c : Context) (labels : List (List ValType)) (code : List Instr) : Prop :=
  ∀ s : Operands, s.known = [] →
    ∃ s', checkInstrs c labels s code = some s' ∧ s'.known = []

variable {c : Context} {labels : List (List ValType)} {ins mid outs : List ValType}
  {code code' : List Instr}

theorem checkInstrs_append (s : Operands) :
    checkInstrs c labels s (code ++ code') =
      (checkInstrs c labels s code).bind fun s ↦ checkInstrs c labels s code' := by
  induction code generalizing s with
  | nil => rfl
  | cons i rest ih =>
    rw [List.cons_append, checkInstrs, checkInstrs]
    cases checkInstr c labels s i with
    | none => rfl
    | some s => exact ih s

theorem checkInstrs_singleton (s : Operands) (i : Instr) :
    checkInstrs c labels s [i] = checkInstr c labels s i := by
  rw [checkInstrs]
  cases checkInstr c labels s i <;> rfl

namespace Transforms

theorem nil : Transforms c labels ins ins [] := fun _ ↦ rfl

theorem append (h : Transforms c labels ins mid code) (h' : Transforms c labels mid outs code') :
    Transforms c labels ins outs (code ++ code') := by
  intro s
  rw [checkInstrs_append, h s]
  exact h' s

theorem cons {i : Instr} (h : Transforms c labels ins mid [i])
    (h' : Transforms c labels mid outs code) : Transforms c labels ins outs (i :: code) :=
  h.append h'

/-- Further operands below stay as they are. -/
theorem frame (h : Transforms c labels ins outs code) (below : List ValType) :
    Transforms c labels (below ++ ins) (below ++ outs) code := by
  intro s
  rw [Operands.push_append, Operands.push_append]
  exact h _

theorem of_checkInstr {i : Instr}
    (h : ∀ s : Operands, checkInstr c labels (s.push ins) i = some (s.push outs)) :
    Transforms c labels ins outs [i] := by
  intro s
  rw [checkInstrs_singleton]
  exact h s

/-! ## Rules -/

theorem i32Const (x : UInt32) : Transforms c labels [] [.i32] [.i32Const x] := fun _ ↦ rfl

theorem f64Const (x : Binary64) : Transforms c labels [] [.f64] [.f64Const x] := fun _ ↦ rfl

theorem i32Eqz : Transforms c labels [.i32] [.i32] [.i32Eqz] :=
  of_checkInstr fun s ↦ s.apply_push c.types ⟨[.i32], [.i32]⟩

theorem drop (t : ValType) : Transforms c labels [t] [] [.drop] := fun _ ↦ rfl

theorem localGet {i : Nat} {t : ValType} (h : c.locals[i]? = some t) :
    Transforms c labels [] [t] [.localGet i] :=
  of_checkInstr fun s ↦ by
    simp only [checkInstr, Instr.plainType?, h, Option.map_some]
    exact s.apply_push c.types ⟨[], [t]⟩

theorem localSet {i : Nat} {t : ValType} (h : c.locals[i]? = some t) :
    Transforms c labels [t] [] [.localSet i] :=
  of_checkInstr fun s ↦ by
    simp only [checkInstr, Instr.plainType?, h, Option.map_some]
    exact s.apply_push c.types ⟨[t], []⟩

theorem globalGet {i : Nat} {g : GlobalType} (h : c.globals[i]? = some g) :
    Transforms c labels [] [g.value] [.globalGet i] :=
  of_checkInstr fun s ↦ by
    simp only [checkInstr, Instr.plainType?, h, Option.map_some]
    exact s.apply_push c.types ⟨[], [g.value]⟩

theorem globalSet {i : Nat} {t : ValType} (h : c.globals[i]? = some ⟨t, true⟩) :
    Transforms c labels [t] [] [.globalSet i] :=
  of_checkInstr fun s ↦ by
    simp only [checkInstr, Instr.plainType?, h]
    exact s.apply_push c.types ⟨[t], []⟩

theorem call {f : Nat} {type : FuncType} (h : c.function? f = some type) :
    Transforms c labels type.params type.results [.call f] :=
  of_checkInstr fun s ↦ by
    simp only [checkInstr, Instr.plainType?, h]
    exact s.apply_push c.types type

theorem brIf {d : Nat} (h : labels[d]? = some []) : Transforms c labels [.i32] [] [.brIf d] :=
  of_checkInstr fun s ↦ by
    simp only [checkInstr, h, Operands.popOne_push, Option.bind_eq_bind, Option.bind_some]
    rfl

theorem hasType (h : Transforms c labels ins outs code) : HasType c labels ins outs code :=
  ⟨_, h .empty, Operands.isExactly_push false outs⟩

end Transforms

/-! ## Code that may jump -/

namespace IsNeutral

theorem of_transforms (h : Transforms c labels [] [] code) : IsNeutral c labels code :=
  fun s hs ↦ ⟨s, h s, hs⟩

theorem nil : IsNeutral c labels [] := of_transforms .nil

theorem append (h : IsNeutral c labels code) (h' : IsNeutral c labels code') :
    IsNeutral c labels (code ++ code') := by
  intro s hs
  obtain ⟨s₁, hcode, hs₁⟩ := h s hs
  obtain ⟨s₂, hcode', hs₂⟩ := h' s₁ hs₁
  exact ⟨s₂, by rw [checkInstrs_append, hcode]; exact hcode', hs₂⟩

theorem br {d : Nat} (h : labels[d]? = some []) : IsNeutral c labels [.br d] := by
  intro s _
  refine ⟨.afterJump, ?_, rfl⟩
  rw [checkInstrs_singleton, checkInstr, h]
  rfl

/-- A table of branches that take nothing along, behind the number of one of them. -/
theorem brTable {depths : List Nat} {last : Nat} (hcode : Transforms c labels [] [.i32] code)
    (hdepths : ∀ d ∈ depths, labels[d]? = some []) (hlast : labels[last]? = some []) :
    IsNeutral c labels (code ++ [.brTable depths last]) := by
  intro s _
  refine ⟨.afterJump, ?_, rfl⟩
  have hall : brTableChecks c.types labels depths [] s := by
    rw [brTableChecks, List.all_eq_true]
    intro d hd
    rw [hdepths d hd]
    rfl
  have hcode := hcode s
  rw [Operands.push_nil] at hcode
  rw [checkInstrs_append, hcode, Option.bind_some, checkInstrs_singleton, checkInstr, hlast]
  simp only [Operands.popOne_push, Option.bind_eq_bind, Option.bind_some, hall, guard, if_true]
  rfl

theorem hasType (h : IsNeutral c labels code) : HasType c labels [] [] code := by
  obtain ⟨inner, hcode, hinner⟩ := h .empty rfl
  exact ⟨inner, hcode, by simp [Operands.isExactly, Operands.pop_nil, hinner]⟩

end IsNeutral

/-! ## Blocks -/

namespace HasType

variable {type : BlockType} {yes no : List Instr}

theorem block (htype : type.signature? c.types = some ⟨ins, outs⟩)
    (h : HasType c (outs :: labels) ins outs code) :
    Transforms c labels ins outs [.block type code] := by
  obtain ⟨inner, hcode, hinner⟩ := h
  refine .of_checkInstr fun s ↦ ?_
  simp only [checkInstr, htype, Operands.pop_push, Option.bind_eq_bind, Option.bind_some, hcode,
    hinner, guard, if_true]
  rfl

/-- A branch to a loop takes its parameters along. -/
theorem loop (htype : type.signature? c.types = some ⟨ins, outs⟩)
    (h : HasType c (ins :: labels) ins outs code) :
    Transforms c labels ins outs [.loop type code] := by
  obtain ⟨inner, hcode, hinner⟩ := h
  refine .of_checkInstr fun s ↦ ?_
  simp only [checkInstr, htype, Operands.pop_push, Option.bind_eq_bind, Option.bind_some, hcode,
    hinner, guard, if_true]
  rfl

/-- Without an alternative, the parameters are the results. -/
theorem ifThen (htype : type.signature? c.types = some ⟨ins, outs⟩)
    (hmatch : c.types.allMatch ins outs) (h : HasType c (outs :: labels) ins outs yes) :
    Transforms c labels (ins ++ [.i32]) outs [.ifThen type yes] := by
  obtain ⟨inner, hcode, hinner⟩ := h
  refine .of_checkInstr fun s ↦ ?_
  simp only [checkInstr, htype, hmatch, Operands.push_append, Operands.popOne_push,
    Operands.pop_push, Option.bind_eq_bind, Option.bind_some, hcode, hinner, guard, if_true]
  rfl

theorem ifElse (htype : type.signature? c.types = some ⟨ins, outs⟩)
    (hyes : HasType c (outs :: labels) ins outs yes)
    (hno : HasType c (outs :: labels) ins outs no) :
    Transforms c labels (ins ++ [.i32]) outs [.ifElse type yes no] := by
  obtain ⟨left, hleft, hl⟩ := hyes
  obtain ⟨right, hright, hr⟩ := hno
  refine .of_checkInstr fun s ↦ ?_
  simp only [checkInstr, htype, Operands.push_append, Operands.popOne_push, Operands.pop_push,
    Option.bind_eq_bind, Option.bind_some, hleft, hl, hright, hr, guard, if_true]
  rfl

/-- The body of a function without parameters. -/
theorem checkBody (h : HasType c [c.results] [] c.results code) : checkBody c code := by
  obtain ⟨inner, hcode, hinner⟩ := h
  rw [Operands.push_nil] at hcode
  rw [Wasm.checkBody, hcode]
  exact hinner

end HasType

end ScriptWasm.Wasm
