import ScriptWasm.Proofs.Sequencing

/-!
# Locals of emitted code

Emitting code adds locals behind those that are there, and all of them are words. Which ones a
statement adds is nobody else's business: what is below is left to the code around it.
-/

namespace ScriptWasm

open Wasm

namespace Lowering

variable {α β : Type}

/-- A step adds words behind the locals that there are. -/
def Grows (x : Lowering α) : Prop :=
  ∀ ls a ls', x ls = .ok (a, ls') → ∃ n, ls' = ls ++ List.replicate n .i32

namespace Grows

variable {x : Lowering α} {ls ls' : Locals} {a : α}

theorem length_le (hx : Grows x) (h : x ls = .ok (a, ls')) : ls.length ≤ ls'.length := by
  obtain ⟨n, rfl⟩ := hx _ _ _ h
  rw [List.length_append]
  omega

theorem pure (a : α) : Grows (pure a : Lowering α) := by
  intro ls b ls' h
  cases h
  exact ⟨0, (List.append_nil ls).symm⟩

theorem throw (e : EmitError) : Grows (throw e : Lowering α) := fun _ _ _ h ↦ nomatch h

theorem lift (y : Except EmitError α) : Grows (liftM y : Lowering α) := by
  intro ls a ls' h
  obtain ⟨-, rfl⟩ := lift_eq_ok_iff.mp h
  exact ⟨0, (List.append_nil _).symm⟩

theorem addLocal : Grows (addLocal .i32) := by
  intro ls i ls' h
  obtain ⟨-, rfl⟩ := addLocal_eq_ok_iff.mp h
  exact ⟨1, rfl⟩

theorem bind {f : α → Lowering β} (hx : Grows x) (hf : ∀ a, Grows (f a)) : Grows (x >>= f) := by
  intro ls b ls' h
  obtain ⟨a, l, ha, hb⟩ := bind_eq_ok_iff.mp h
  obtain ⟨n, rfl⟩ := hx _ _ _ ha
  obtain ⟨k, rfl⟩ := hf a _ _ _ hb
  exact ⟨n + k, by rw [List.append_assoc, List.replicate_append_replicate]⟩

theorem map {f : α → β} (hx : Grows x) : Grows (f <$> x) := by
  rw [← bind_pure_comp]
  exact hx.bind fun a ↦ pure (f a)

end Grows

end Lowering

namespace Setting

open Lowering

variable (w : Setting)

theorem grows_lowerStore (value : Expr) (indices : List Expr) :
    ∀ array, Grows (w.lowerStore array value indices) := by
  induction indices with
  | nil => exact fun _ ↦ .throw _
  | cons first rest ih =>
    intro array
    cases rest with
    | nil =>
      exact (Grows.lift _).bind fun _ ↦ (Grows.lift _).bind fun _ ↦ (Grows.lift _).bind
        fun _ ↦ .pure _
    | cons second rest =>
      exact .bind .addLocal fun _ ↦ .bind .addLocal fun inner ↦ (Grows.lift _).bind fun _ ↦
        (Grows.lift _).bind fun _ ↦ (ih inner).bind fun _ ↦ (Grows.lift _).bind fun _ ↦ .pure _

theorem grows_lowerAssign (value : Expr) (target : Target) :
    Grows (w.lowerAssign value target) := by
  match target with
  | .variable name => exact (Grows.lift _).bind fun _ ↦ (Grows.lift _).bind fun _ ↦ .pure _
  | .index array indices =>
    exact (Grows.lift _).bind fun _ ↦ .bind .addLocal fun whole ↦
      (w.grows_lowerStore value indices whole).bind fun _ ↦ .pure _
  | .property type name =>
    exact (Grows.lift _).bind fun _ ↦ (Grows.lift _).bind fun _ ↦ (Grows.lift _).bind
      fun _ ↦ .pure _
  | .event type name =>
    cases value with
    | «variable» handler =>
      exact (Grows.lift _).bind fun _ ↦ (Grows.lift _).bind fun _ ↦ (Grows.lift _).bind
        fun _ ↦ .pure _
    | _ => exact .throw _

theorem grows_lowerBounds (slot stop by_ : Nat) (start last : Expr) (step : Option Expr) :
    Grows (w.lowerBounds slot stop by_ start last step) := by
  cases step with
  | none =>
    exact (Grows.lift _).bind fun _ ↦ (Grows.lift _).bind fun _ ↦ (Grows.lift _).bind fun _ ↦
      (Grows.lift _).bind fun _ ↦ (Grows.lift _).bind fun _ ↦ .pure _
  | some step =>
    have hdescending : Grows (w.lowerDescending by_) :=
      .bind .addLocal fun _ ↦ (Grows.lift _).bind fun _ ↦ (Grows.lift _).bind fun _ ↦
        (Grows.lift _).bind fun _ ↦ .pure _
    exact (Grows.lift _).bind fun _ ↦ (Grows.lift _).bind fun _ ↦ (Grows.lift _).bind fun _ ↦
      hdescending.bind fun _ ↦ (Grows.lift _).bind fun _ ↦ (Grows.lift _).bind fun _ ↦
      (Grows.lift _).bind fun _ ↦ .pure _

mutual

theorem grows_lowerStmt (s : Scope) (st : Stmt) : Grows (w.lowerStmt s st) := by
  match st with
  | .assign target value _ => exact w.grows_lowerAssign value target
  | .call type method args _ =>
    exact (Grows.lift _).bind fun _ ↦ (Grows.lift _).bind fun _ ↦ (Grows.lift _).bind
      fun _ ↦ .pure _
  | .cond condition body arms otherwise _ =>
    exact (Grows.lift _).bind fun _ ↦ (grows_lowerStmts s.opened body).bind fun _ ↦
      (grows_lowerArms s.opened arms fun s' ↦ by
        split
        · exact .pure none
        · exact (grows_lowerStmts s' otherwise).map).bind fun _ ↦ .pure _
  | .while condition body _ =>
    exact (Grows.lift _).bind fun _ ↦ (grows_lowerStmts s.opened.opened body).bind fun _ ↦ .pure _
  | .for name start last step body _ =>
    exact (Grows.lift _).bind fun _ ↦ .bind .addLocal fun _ ↦ .bind .addLocal fun _ ↦
      (w.grows_lowerBounds _ _ _ start last step).bind fun _ ↦
      (grows_lowerStmts s.opened.opened body).bind fun _ ↦ (Grows.lift _).bind fun _ ↦ .pure _
  | .goto name _ => exact (Grows.lift _).bind fun _ ↦ (Grows.lift _).bind fun _ ↦ .pure _
  | .callSub name _ => exact (Grows.lift _).bind fun _ ↦ .pure _
  | .label .. => exact .pure []
  | .sub .. => exact .pure []
  | .empty .. => exact .pure []

theorem grows_lowerStmts (s : Scope) (body : List Stmt) : Grows (w.lowerStmts s body) := by
  match body with
  | [] => exact .pure []
  | st :: rest =>
    exact (grows_lowerStmt s st).bind fun _ ↦ (grows_lowerStmts s rest).bind fun _ ↦ .pure _

theorem grows_lowerArms (s : Scope) (arms : List Arm)
    {otherwise : Scope → Lowering (Option (List Instr))} (ho : ∀ s', Grows (otherwise s')) :
    Grows (w.lowerArms s arms otherwise) := by
  match arms with
  | [] => exact ho s
  | .mk condition body :: rest =>
    exact (Grows.lift _).bind fun _ ↦ (grows_lowerStmts s.opened body).bind fun _ ↦
      (grows_lowerArms s.opened rest ho).bind fun _ ↦ .pure _

end

/-- The last alternative of a conditional, which is left out if it is empty. -/
def lowerOtherwise (otherwise : List Stmt) (s : Scope) : Lowering (Option (List Instr)) :=
  if otherwise.isEmpty then pure none else some <$> w.lowerStmts s otherwise

theorem grows_lowerOtherwise (otherwise : List Stmt) (s : Scope) :
    Grows (w.lowerOtherwise otherwise s) := by
  rw [lowerOtherwise]
  split
  · exact .pure none
  · exact (w.grows_lowerStmts s otherwise).map

theorem grows_lowerSegments (s : Scope) (parts : List (List Stmt)) :
    Grows (w.lowerSegments s parts) := by
  induction parts with
  | nil => exact .pure []
  | cons part rest ih =>
    exact (w.grows_lowerStmts { s with depth := s.depth + rest.length } part).bind fun _ ↦
      ih.bind fun _ ↦ .pure _

/-- A routine is its statements if it has no labels, and else a loop around its segments. -/
theorem lowerRoutine_cases {routine : Routine} {body : List Stmt} {before after : Locals}
    {code : List Instr} (h : w.lowerRoutine routine body before = .ok (code, after)) :
    (∃ part, segments body = [part]) ∧
        w.lowerStmts (.top routine) body before = .ok (code, after) ∨
      ∃ codes, w.lowerSegments ((Scope.top routine).opened.dispatching before.length)
          (segments body) (before ++ [.i32]) = .ok (codes, after) ∧
        code = [.loop .empty (nestSegments [.localGet before.length,
          .brTable (List.range (segments body).length) ((segments body).length - 1)] codes)] := by
  unfold lowerRoutine at h
  generalize segments body = parts at h
  match parts with
  | [part] => exact .inl ⟨⟨part, rfl⟩, h⟩
  | [] | _ :: _ :: _ =>
    simp only [Lowering.bind_eq_ok_iff, Lowering.addLocal_eq_ok_iff, Lowering.pure_eq_ok_iff] at h
    obtain ⟨selector, _, ⟨rfl, rfl⟩, codes, _, hcodes, heq⟩ := h
    cases heq
    exact .inr ⟨codes, hcodes, rfl⟩

theorem grows_lowerRoutine (routine : Routine) (body : List Stmt) :
    Grows (w.lowerRoutine routine body) := by
  intro before code after h
  obtain ⟨-, h⟩ | ⟨codes, h, -⟩ := w.lowerRoutine_cases h
  · exact w.grows_lowerStmts _ _ _ _ _ h
  · obtain ⟨n, rfl⟩ := w.grows_lowerSegments _ _ _ _ _ h
    exact ⟨n + 1, by rw [List.append_assoc, List.replicate_succ, List.singleton_append]⟩

/-- The locals of a routine are words. -/
theorem locals_routineCode {routine : Routine} {body : List Stmt} {code : Code}
    (h : w.routineCode routine body = .ok code) :
    ∃ n, code.locals = List.replicate n (1, .i32) ∧
      w.lowerRoutine routine body [] = .ok (code.body, List.replicate n .i32) := by
  simp only [routineCode, StateT.run, ScriptWasm.bind_eq_ok_iff, ScriptWasm.pure_eq_ok_iff] at h
  obtain ⟨⟨instrs, locals⟩, hbody, rfl⟩ := h
  obtain ⟨n, hn⟩ := w.grows_lowerRoutine routine body _ _ _ hbody
  rw [List.nil_append] at hn
  subst hn
  exact ⟨n, by rw [List.map_replicate], hbody⟩

end Setting

end ScriptWasm
