import Mathlib.Data.Option.Basic
import ScriptWasm.Wasm.Typing

/-!
# What code refers to

Code is within bounds if it branches only out of blocks that are open, and refers only to locals,
globals and functions that are there. Code that is checked is within the bounds of its context: an
instruction has a type only if all that it refers to has one.
-/

namespace ScriptWasm.Wasm

/-- How much there is for code to refer to. -/
structure Bounds where
  locals : Nat
  globals : Nat
  functions : Nat
deriving DecidableEq, Repr

def Catch.label : Catch → Nat
  | .tagged _ label _ => label
  | .all label _ => label

mutual

/-- Whether an instruction refers to nothing that is not there, where `depth` blocks are open. -/
def Instr.isWithin (b : Bounds) (depth : Nat) : Instr → Bool
  | .block _ body => isWithin b (depth + 1) body
  | .loop _ body => isWithin b (depth + 1) body
  | .ifThen _ yes => isWithin b (depth + 1) yes
  | .ifElse _ yes no => isWithin b (depth + 1) yes && isWithin b (depth + 1) no
  | .tryTable _ catches body => catches.all (·.label < depth) && isWithin b (depth + 1) body
  | .br d => d < depth
  | .brIf d => d < depth
  | .brTable depths last => depths.all (· < depth) && last < depth
  | .brOnNull d => d < depth
  | .brOnNonNull d => d < depth
  | .brOnCast _ d _ _ => d < depth
  | .call f => f < b.functions
  | .returnCall f => f < b.functions
  | .refFunc f => f < b.functions
  | .localGet i => i < b.locals
  | .localSet i => i < b.locals
  | .localTee i => i < b.locals
  | .globalGet i => i < b.globals
  | .globalSet i => i < b.globals
  | _ => true

def isWithin (b : Bounds) (depth : Nat) : List Instr → Bool
  | [] => true
  | i :: rest => i.isWithin b depth && isWithin b depth rest

end

/-- What a context has. -/
def Context.bounds (c : Context) : Bounds := ⟨c.locals.length, c.globals.length, c.functions.length⟩

variable {c : Context}

theorem isBelow_of_getElem? {α : Type} {xs : List α} {i : Nat} {x : α} (h : xs[i]? = some x) :
    decide (i < xs.length) = true := decide_eq_true (List.getElem?_eq_some_iff.mp h).1

theorem isBelow_of_bind {α β : Type} {xs : List α} {i : Nat} {f : α → Option β} {y : β}
    (h : xs[i]?.bind f = some y) : decide (i < xs.length) = true := by
  obtain ⟨x, hx, -⟩ := Option.bind_eq_some_iff.mp h
  exact isBelow_of_getElem? hx

theorem isBelow_of_map {α β γ : Type} {xs : List α} {i : Nat} {f : α → β} {g : β → Option γ}
    {y : γ} (h : (xs[i]?.map f).bind g = some y) : decide (i < xs.length) = true := by
  rw [Option.bind_map] at h
  exact isBelow_of_bind h

theorem all_lt_of_brTableChecks {labels : List (List ValType)} {depths : List Nat}
    {last : List ValType} {s : Operands} (h : brTableChecks c.types labels depths last s) :
    depths.all (· < labels.length) := by
  rw [brTableChecks, List.all_eq_true] at h
  refine List.all_eq_true.mpr fun d hd ↦ ?_
  have hd := h d hd
  split at hd
  · exact isBelow_of_getElem? ‹_›
  · cases hd

theorem Catch.label_lt {labels : List (List ValType)} (h : Catch)
    (hh : h.isValid c labels) : h.label < labels.length := by
  cases h with
  | tagged tag label withReference =>
    rw [isValid] at hh
    split at hh
    · exact (List.getElem?_eq_some_iff.mp ‹_›).1
    · cases hh
  | all label withReference =>
    rw [isValid] at hh
    split at hh
    · exact (List.getElem?_eq_some_iff.mp ‹_›).1
    · cases hh

mutual

theorem isWithin_of_checkInstr {labels : List (List ValType)} {s s' : Operands} {i : Instr}
    (h : checkInstr c labels s i = some s') : i.isWithin c.bounds labels.length := by
  cases i with
  | block type body =>
    simp only [checkInstr, Option.bind_eq_bind, Option.bind_eq_some_iff] at h
    obtain ⟨t, -, s₁, -, inner, hbody, -⟩ := h
    exact isWithin_of_checkInstrs hbody
  | loop type body =>
    simp only [checkInstr, Option.bind_eq_bind, Option.bind_eq_some_iff] at h
    obtain ⟨t, -, s₁, -, inner, hbody, -⟩ := h
    exact isWithin_of_checkInstrs hbody
  | ifThen type yes =>
    simp only [checkInstr, Option.bind_eq_bind, Option.bind_eq_some_iff] at h
    obtain ⟨t, -, _, -, s₁, -, s₂, -, inner, hbody, -⟩ := h
    exact isWithin_of_checkInstrs hbody
  | ifElse type yes no =>
    simp only [checkInstr, Option.bind_eq_bind, Option.bind_eq_some_iff] at h
    obtain ⟨t, -, s₁, -, s₂, -, left, hyes, -, -, right, hno, -⟩ := h
    rw [Instr.isWithin, Bool.and_eq_true]
    exact ⟨isWithin_of_checkInstrs hyes, isWithin_of_checkInstrs hno⟩
  | tryTable type catches body =>
    simp only [checkInstr, Option.bind_eq_bind, Option.bind_eq_some_iff] at h
    obtain ⟨t, -, s₁, -, _, hcatches, inner, hbody, -⟩ := h
    have hcatches := List.all_eq_true.mp ((Option.guard_eq_some' _).mp hcatches)
    rw [Instr.isWithin, Bool.and_eq_true, List.all_eq_true]
    exact ⟨fun h hh ↦ decide_eq_true (h.label_lt (hcatches h hh)), isWithin_of_checkInstrs hbody⟩
  | brTable depths last =>
    simp only [checkInstr, Option.bind_eq_bind, Option.bind_eq_some_iff] at h
    obtain ⟨ts, hts, s₁, -, _, hdepths, -⟩ := h
    rw [Instr.isWithin, Bool.and_eq_true]
    exact ⟨all_lt_of_brTableChecks ((Option.guard_eq_some' _).mp hdepths), isBelow_of_getElem? hts⟩
  | br d => exact isBelow_of_bind h
  | brIf d => exact isBelow_of_bind h
  | brOnNull d =>
    obtain ⟨o, -, h⟩ := Option.bind_eq_some_iff.mp h
    exact isBelow_of_bind h
  | brOnNonNull d => exact isBelow_of_bind h
  | brOnCast fails d source target =>
    simp only [checkInstr, checkBrOnCast, Option.bind_eq_bind, Option.bind_eq_some_iff] at h
    obtain ⟨source, -, target, -, _, -, ts, hts, -⟩ := h
    exact isBelow_of_getElem? hts
  | call f =>
    obtain ⟨type, htype, -⟩ := Option.bind_eq_some_iff.mp h
    exact isBelow_of_bind htype
  | returnCall f =>
    obtain ⟨type, htype, -⟩ := Option.bind_eq_some_iff.mp h
    exact isBelow_of_bind htype
  | refFunc f =>
    simp only [checkInstr, Instr.plainType?, Option.bind_eq_bind, Option.bind_eq_some_iff] at h
    obtain ⟨type, ⟨_, -, i, hi, -⟩, -⟩ := h
    exact isBelow_of_getElem? hi
  | localGet i => exact isBelow_of_map h
  | localSet i => exact isBelow_of_map h
  | localTee i => exact isBelow_of_map h
  | globalGet i => exact isBelow_of_map h
  | globalSet i =>
    obtain ⟨type, htype, -⟩ := Option.bind_eq_some_iff.mp h
    exact isBelow_of_bind htype
  | _ => rfl

theorem isWithin_of_checkInstrs {labels : List (List ValType)} {s s' : Operands}
    {code : List Instr} (h : checkInstrs c labels s code = some s') :
    isWithin c.bounds labels.length code := by
  cases code with
  | nil => rfl
  | cons i rest =>
    simp only [checkInstrs, Option.bind_eq_some_iff] at h
    obtain ⟨s₁, hi, hrest⟩ := h
    rw [isWithin, Bool.and_eq_true]
    exact ⟨isWithin_of_checkInstr hi, isWithin_of_checkInstrs hrest⟩

end

end ScriptWasm.Wasm
