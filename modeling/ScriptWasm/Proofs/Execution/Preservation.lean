import ScriptWasm.Proofs.Emission.Acceptance
import ScriptWasm.Proofs.Execution.Layout
import ScriptWasm.Proofs.Execution.Routines

/-!
# Modules do what their programs do

Everything that was assumed about the machine and the tables so far holds for the module of a
program: operations and members are imported, texts are in memory, and the functions of routines are
their code. So calling the function that the module exports does what the program does when it is
run directly, call by call, and the functions in the table of handlers do what the subroutines do.
-/

namespace ScriptWasm

open Wasm

/-! ## Using modules from outside -/

namespace Wasm

variable {σ : Type}

/-- The function that is exported under a name. -/
def Module.exportedFunction? (m : Module) (name : String) : Option Nat :=
  m.exports.findSome? fun x ↦ if x.name = name ∧ x.kind = .function then some x.index else none

/-- The function that segments put into the table at an index. -/
def Module.tableAt? (m : Module) (i : Nat) : Option Nat :=
  m.elements.findSome? fun e ↦ match e.mode, e.items with
    | .active 0 [.i32Const start], .functions indices =>
      if start.toNat ≤ i then indices[i - start.toNat]? else none
    | _, _ => none

/-- Calls a function of a module that is linked to an embedder. -/
def Module.call (m : Module) (e : Embedder σ) (fuel f : Nat) (w : World σ) : Option (World σ) :=
  ((m.link e).step fuel (.call f) ⟨w, [], []⟩).map fun r ↦ r.2.world

/-- An embedder gives what the types of functions say. -/
def Embedder.Honors (e : Embedder σ) (uses : List (ImportRef × FuncType)) : Prop :=
  ∀ u ∈ uses, ∀ args s, args.map Value.type = u.2.params →
    (e.call u.1 args s).1.map Value.type = u.2.results

end Wasm

variable {σ : Type}

theorem Wasm.Code.branchesAreFew_of_isValid {c : Context} {type : FuncType} {code : Code}
    (h : code.isValid c type) : branchesAreFew code.body := by
  rw [Code.isValid] at h
  split at h
  · split at h
    · simp only [Bool.and_eq_true] at h
      exact h.1.1
    · cases h
  · cases h

/-- Code of a valid module has no long tables of branches. -/
theorem Wasm.Module.branchesAreFew_of_isValid {m : Module} (h : m.isValid) {code : Code}
    (hcode : code ∈ m.codes) : branchesAreFew code.body := by
  rw [isValid] at h
  split at h
  · cases h
  · rename_i c hc
    simp only [context?, Option.bind_eq_bind, Option.bind_eq_some_iff, Option.pure_def,
      Option.some.injEq] at hc
    obtain ⟨types, -, functions, hfunctions, tables, -, globals, -, tags, -, elements, -, rfl⟩ := hc
    have hlength := (mapM_eq_some hfunctions).1
    simp only [Bool.and_eq_true, decide_eq_true_eq, List.all_eq_true] at h
    obtain ⟨⟨-, hcounts⟩, hcodes⟩ := h.1
    obtain ⟨i, hi, rfl⟩ := List.getElem_of_mem hcode
    have hdefined : i < (functions.drop m.importedFunctions.length).length := by
      rw [List.length_drop, hlength, List.length_append]
      omega
    have hmem : ((functions.drop m.importedFunctions.length)[i], m.codes[i]) ∈
        (functions.drop m.importedFunctions.length).zip m.codes :=
      List.mem_iff_getElem.mpr ⟨i, by rw [List.length_zip]; omega, List.getElem_zip⟩
    obtain ⟨type, -, hvalid⟩ := (Option.any_eq_true ..).mp (hcodes _ hmem)
    exact Code.branchesAreFew_of_isValid hvalid

theorem branchesAreFew_of_nestSegments {inner : List Instr} {codes : List (List Instr)}
    (h : branchesAreFew (nestSegments inner codes)) : branchesAreFew inner := by
  induction codes generalizing inner with
  | nil => exact h
  | cons code rest ih =>
    have := ih h
    simp only [branchesAreFew, Instr.branchesAreFew, Bool.and_eq_true] at this
    exact this.1

/-- A routine in a valid module has fewer labels than there are words: each of them is in a table of
branches. -/
theorem length_labelNames_lt {w : Setting} {routine : Routine} {body : List Stmt} {code : Code}
    (hcode : w.routineCode routine body = .ok code) (hfew : branchesAreFew code.body) :
    (labelNames body).length < UInt32.size := by
  have hlength := length_segments body
  obtain ⟨n, -, hbody⟩ := w.locals_routineCode hcode
  obtain ⟨⟨part, hpart⟩, -⟩ | ⟨codes, -, hinstrs⟩ := w.lowerRoutine_cases hbody
  · rw [hpart, List.length_singleton] at hlength
    rw [← Nat.succ.inj hlength]
    decide
  · rw [hinstrs, branchesAreFew, Instr.branchesAreFew, Bool.and_eq_true] at hfew
    have htable := branchesAreFew_of_nestSegments hfew.1
    simp only [branchesAreFew, Instr.branchesAreFew, List.length_range, Bool.and_eq_true,
      decide_eq_true_eq] at htable
    have hmost : mostBranches < UInt32.size := by decide
    omega

/-! ## The module of a program -/

/-- The code of routines, at their positions. -/
theorem Setting.getElem?_of_lowerProgram {w : Setting} {p : Program} {codes : List Code}
    (h : w.lowerProgram p = .ok codes) :
    (∃ code, codes[0]? = some code ∧ w.routineCode .entry p.body = .ok code) ∧
      ∀ i sub, (topSubroutines p.body)[i]? = some sub →
        ∃ code, codes[i + 1]? = some code ∧ w.routineCode (.subroutine i) sub.2 = .ok code := by
  simp only [lowerProgram, bind_eq_ok_iff, pure_eq_ok_iff] at h
  obtain ⟨entry, hentry, others, hothers, rfl⟩ := h
  refine ⟨⟨entry, rfl, hentry⟩, fun i sub hsub ↦ ?_⟩
  have hbody : p.subroutineBodies.zipIdx[i]? = some (sub.2, i) := by
    rw [List.getElem?_zipIdx, Program.subroutineBodies_eq, List.getElem?_map, hsub]
    simp
  obtain ⟨code, hcode, hroutine⟩ := (mapM_eq_ok hothers).2 hbody
  exact ⟨code, hcode, hroutine⟩

namespace Tables

variable {h : Host} {p : Program} {t : Tables} {codes : List Code} {metadata : Metadata}

theorem exportedFunction?_layout :
    (t.layout codes metadata).exportedFunction? Layout.entry = some (t.function .entry) := by
  rw [Module.exportedFunction?, exports_layout]
  rfl

theorem tableAt?_layout {i : Nat} (hi : i < t.subroutines.length) :
    (t.layout codes metadata).tableAt? i = some (t.function (.subroutine i)) := by
  have hne : ¬t.subroutines.isEmpty := by
    rw [List.isEmpty_iff]
    exact List.ne_nil_of_length_pos (Nat.zero_lt_of_lt hi)
  rw [Module.tableAt?, elements_layout, if_neg hne]
  simp [hi]

/-- Where texts lie. -/
def place (t : Tables) (text : String) : Extent := (t.textExtent? text).getD ⟨0, 0⟩

/-- What is known about the tables and the module of a program whose members are imported at the
types that they are used with. -/
structure IsLinked (h : Host) (p : Program) (t : Tables) (codes : List Code) : Prop extends
    IsFinished h p t where
  operators_typed : ∀ op, (h.operators.handle op).signature = op.signature
  imported : ∀ u ∈ h.uses p, t.importType? u.1 = some u.2
  routine : t.signatures[0]? = some ⟨[], []⟩
  lowered : Setting.lowerProgram ⟨h, t⟩ p = .ok codes
  few : ∀ code ∈ codes, branchesAreFew code.body

namespace IsLinked

variable {σ : Type} {e : Embedder σ}

/-- A use that can be looked up is realized. -/
theorem realizes_function (ht : IsLinked h p t codes) (he : e.Honors (h.uses p))
    {source : ImportRef} {type : FuncType} (huse : (source, type) ∈ h.uses p)
    (hfound : ∃ i, t.importIndex? source = some i) :
    Realizes ((t.layout codes metadata).link e) ⟨h, t⟩ (p.meaning h e t.place)
      (.function source type) := by
  obtain ⟨i, hi⟩ := hfound
  exact ⟨⟨i, hi, callee?_import e hi (ht.imported _ huse)⟩, he _ huse⟩

theorem realizesAll (ht : IsLinked h p t codes) (he : e.Honors (h.uses p)) :
    RealizesAll ((t.layout codes metadata).link e) ⟨h, t⟩ (p.meaning h e t.place)
      (h.registry.stmtsDemands p.body) := by
  intro d hd
  have hprovides := ht.provides d hd
  match d with
  | .function source type => exact ht.realizes_function he (Host.mem_uses hd) hprovides
  | .text contents =>
    obtain ⟨extent, hextent⟩ := hprovides
    have hplace : t.textExtent? contents = some (t.place contents) := by
      rw [place, hextent, Option.getD_some]
    exact hplace
  | .label _ => trivial
  | .enter _ => trivial
  | .leave => trivial

theorem implements (ht : IsLinked h p t codes) (he : e.Honors (h.uses p)) :
    Implements ((t.layout codes metadata).link e) ⟨h, t⟩ (p.meaning h e t.place) where
  host := rfl
  embedder := rfl
  slots := ht.slots
  subroutines := ht.subroutines
  operators op := by
    rw [← ht.operators_typed op]
    exact ht.realizes_function he (h.operator_mem_uses p op) (ht.operators op)

/-- The function of a routine is its code. -/
theorem callable (ht : IsLinked h p t codes) (he : e.Honors (h.uses p)) {routine : Routine}
    {body : List Stmt} {code : Code} (hcode : codes[routine.position]? = some code)
    (hcount : routine.position ≤ t.subroutines.length)
    (hroutine : Setting.routineCode ⟨h, t⟩ routine body = .ok code)
    (ha : ∃ kind, h.registry.AdmitsStmts kind body)
    (hdemands : ∀ d ∈ h.registry.stmtsDemands body, d ∈ h.registry.stmtsDemands p.body)
    (hlabels : t.labelsOf routine = labelNames body) :
    Callable ((t.layout codes metadata).link e) ⟨h, t⟩ (p.meaning h e t.place) routine body where
  code := ⟨code, hroutine, callee?_routine e ht.routine hcode hcount⟩
  admitted := ha
  realized := fun d hd ↦ ht.realizesAll he d (hdemands d hd)
  labels := hlabels
  few := length_labelNames_lt hroutine (ht.few code (List.mem_of_getElem? hcode))

theorem callable_subroutine (ht : IsLinked h p t codes) (he : e.Honors (h.uses p)) {i : Nat}
    {sub : String × List Stmt} (hsub : (topSubroutines p.body)[i]? = some sub) :
    Callable ((t.layout codes metadata).link e) ⟨h, t⟩ (p.meaning h e t.place) (.subroutine i)
      sub.2 := by
  obtain ⟨-, hothers⟩ := Setting.getElem?_of_lowerProgram ht.lowered
  obtain ⟨code, hcode, hroutine⟩ := hothers i sub hsub
  have hmem := List.mem_of_getElem? hsub
  have hcount : i < t.subroutines.length := by
    rw [ht.subroutines, subroutineNames, List.length_map]
    exact (List.getElem?_eq_some_iff.mp hsub).1
  exact ht.callable he hcode hcount hroutine ⟨_, ht.admitted.subroutine hmem⟩
    (fun _ hd ↦ Registry.mem_stmtsDemands_of_subroutine hmem hd) (ht.labelsOf_subroutine hsub)

end IsLinked

end Tables

end ScriptWasm
