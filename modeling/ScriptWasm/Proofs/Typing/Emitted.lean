import ScriptWasm.Proofs.Emission.Acceptance
import ScriptWasm.Proofs.Emission.Imports
import ScriptWasm.Proofs.Typing.Bounds
import ScriptWasm.Proofs.Typing.Statements

/-!
# Emitted code has types

Every function of a module is well typed as soon as its imports have the types that the program uses
them with. What types imports really have is another question: two uses of one import may ask for
different ones, and then no context gives both what they need.
-/

namespace ScriptWasm

open Wasm

/-- A context in which functions and globals are what the code of a program takes them for: imports
have the types that they are used with, routines take and give nothing, and every slot is a word
that can be written. Locals may be any. -/
structure Program.IsTypedIn (p : Program) (h : Host) (t : Tables) (c : Context) : Prop where
  imports : ∀ u ∈ h.uses p, t.TypesImport c u.1 u.2
  routines : ∀ i ≤ t.subroutines.length, c.function? (t.imports.length + i) = some ⟨[], []⟩
  functions : c.functions.length = t.imports.length + 1 + t.subroutines.length
  globals : c.globals = t.slots.map fun _ ↦ ⟨.i32, true⟩

variable {h : Host} {p : Program} {t : Tables} {c : Context}

theorem Program.IsTypedIn.isTyped {runtime : Library}
    (hoperators : Bindings.resolve runtime = .ok h.operators) (hc : p.IsTypedIn h t c) :
    Setting.IsTyped ⟨h, t⟩ c (h.registry.stmtsDemands p.body) where
  operators op := by
    have huse := hc.imports _ (h.operator_mem_uses p op)
    rwa [Handle.use, Bindings.signature_of_resolve hoperators] at huse
  members source type hmem := hc.imports _ (Host.mem_uses hmem)
  routines i hi := hc.routines (i + 1) hi
  globals i hi := by
    rw [hc.globals, List.getElem?_map, List.getElem?_eq_getElem hi]
    rfl

/-- Every function of a program is the code of a routine whose statements are the program's. -/
theorem Tables.IsFinished.routineCode_of_mem (ht : t.IsFinished h p) {codes : List Code}
    (hcodes : Setting.lowerProgram ⟨h, t⟩ p = .ok codes) {code : Code} (hcode : code ∈ codes) :
    ∃ routine body, Setting.routineCode ⟨h, t⟩ routine body = .ok code ∧
      h.registry.CoversStmts (h.registry.stmtsDemands p.body) body := by
  simp only [Setting.lowerProgram, bind_eq_ok_iff, pure_eq_ok_iff] at hcodes
  obtain ⟨entry, hentry, others, hothers, rfl⟩ := hcodes
  obtain rfl | hcode := List.mem_cons.mp hcode
  · exact ⟨.entry, p.body, hentry, ⟨_, ht.admitted⟩, List.Subset.refl _⟩
  · obtain ⟨⟨body, i⟩, hmem, hbody⟩ := exists_of_mem_mapM hothers hcode
    have hsub : body ∈ p.subroutineBodies := List.fst_mem_of_mem_zipIdx hmem
    rw [Program.subroutineBodies_eq, List.mem_map] at hsub
    obtain ⟨s, hs, rfl⟩ := hsub
    exact ⟨.subroutine i, s.2, hbody, ⟨_, ht.admitted.subroutine hs⟩,
      fun d hd ↦ Registry.mem_stmtsDemands_of_subroutine hs hd⟩

/-- The body of every function is neutral, with the locals that it declares. -/
theorem Program.IsTypedIn.isNeutral_of_mem {runtime : Library} (hc : p.IsTypedIn h t c)
    (hoperators : Bindings.resolve runtime = .ok h.operators) (ht : Tables.ofProgram h p = .ok t)
    {codes : List Code} (hcodes : Setting.lowerProgram ⟨h, t⟩ p = .ok codes) {code : Code}
    (hcode : code ∈ codes) :
    ∃ n, code.locals = List.replicate n (1, .i32) ∧ ∀ labels,
      IsNeutral { c with locals := List.replicate n .i32, results := [] } labels code.body := by
  have hfinished := Tables.isFinished_of_ofProgram ht
  obtain ⟨routine, body, hroutine, hbody⟩ := hfinished.routineCode_of_mem hcodes hcode
  obtain ⟨n, hlocals, hlowered⟩ := Setting.locals_routineCode _ hroutine
  have hwords : Context.HasWords { c with locals := List.replicate n .i32, results := [] }
      (List.replicate n ValType.i32).length := by
    intro i hi
    rw [List.length_replicate] at hi
    rw [List.getElem?_replicate, if_pos hi]
  have hw := hc.isTyped hoperators
  have hw' : Setting.IsTyped ⟨h, t⟩ { c with locals := List.replicate n .i32, results := [] } _ :=
    ⟨hw.operators, hw.members, hw.routines, hw.globals⟩
  exact ⟨n, hlocals, fun labels ↦ hw'.isNeutral_lowerRoutine hbody hlowered hwords⟩

/-- The code of a program is well typed. In a context that has what the program uses, the code of an
expression leaves one word and that of a statement nothing, in whatever blocks they stand. The body
of every function has the type of a routine, and refers to nothing that is not there: it branches
only out of its own blocks, and its locals are those that it declares. -/
theorem Program.code_hasType {runtime : Library}
    (hoperators : Bindings.resolve runtime = .ok h.operators) (ht : Tables.ofProgram h p = .ok t)
    {codes : List Code} (hcodes : Setting.lowerProgram ⟨h, t⟩ p = .ok codes)
    (hc : p.IsTypedIn h t c) :
    (∀ e ∈ p.expressions, ∀ code, Setting.lowerExpr ⟨h, t⟩ e = .ok code →
      ∀ labels, HasType c labels [] [.i32] code) ∧
    (∀ st ∈ p.statements, ∀ s before code after,
      Setting.lowerStmt ⟨h, t⟩ s st before = .ok (code, after) →
      ∀ labels, s.IsTyped c labels → c.HasWords after.length → HasType c labels [] [] code) ∧
    ∀ code ∈ codes, ∃ n, code.locals = List.replicate n (1, .i32) ∧
      checkBody { c with locals := List.replicate n .i32, results := [] } code.body ∧
      isWithin ⟨n, t.slots.length, t.imports.length + 1 + t.subroutines.length⟩ 0 code.body := by
  have hfinished := Tables.isFinished_of_ofProgram ht
  have hw := hc.isTyped hoperators
  refine ⟨fun e he code hcode labels ↦ ?_,
    fun st hst s before code after hcode labels hs hlocals ↦ ?_, fun code hcode ↦ ?_⟩
  · exact (hw.transforms_lowerExpr (coversExpr_of_mem_expressions hfinished.admitted he)
      hcode).hasType
  · exact (hw.isNeutral_lowerStmt hs (coversStmt_of_mem_statements hfinished.admitted hst) hcode
      hlocals).hasType
  · obtain ⟨n, hlocals, hneutral⟩ := hc.isNeutral_of_mem hoperators ht hcodes hcode
    refine ⟨n, hlocals, (hneutral [[]]).hasType.checkBody, ?_⟩
    obtain ⟨s, hchecked, -⟩ := (hneutral []).hasType
    have hwithin := isWithin_of_checkInstrs hchecked
    simpa [Context.bounds, hc.globals, hc.functions] using hwithin

/-- What the code of the greeting can refer to. -/
def Program.greetingContext : Context := greetingModule.context?.get (by decide +kernel)

theorem Program.greeting_isTypedIn :
    greeting.IsTypedIn .console greetingTables greetingContext := by
  -- All of it is evaluated at once, since each time the tables have to be filled again.
  obtain ⟨himports, hroutines, hfunctions, hglobals⟩ :
      (∀ u ∈ Host.console.uses greeting, greetingTables.TypesImport greetingContext u.1 u.2) ∧
      (∀ i ≤ greetingTables.subroutines.length,
        greetingContext.function? (greetingTables.imports.length + i) = some ⟨[], []⟩) ∧
      greetingContext.functions.length =
        greetingTables.imports.length + 1 + greetingTables.subroutines.length ∧
      greetingContext.globals = greetingTables.slots.map fun _ ↦ ⟨.i32, true⟩ := by
    decide +kernel
  exact ⟨himports, hroutines, hfunctions, hglobals⟩

theorem Program.greeting_hasType :
    Tables.ofProgram .console greeting = .ok greetingTables ∧
      Setting.lowerProgram ⟨.console, greetingTables⟩ greeting = .ok greetingCodes ∧
      greeting.IsTypedIn .console greetingTables greetingContext ∧ greetingCodes.length = 2 ∧
      ∀ code ∈ greetingCodes, ∃ n, code.locals = List.replicate n (1, .i32) ∧
        checkBody { greetingContext with locals := List.replicate n .i32, results := [] }
          code.body ∧
        isWithin ⟨n, 1, 21⟩ 0 code.body := by
  obtain ⟨ht, hcodes⟩ := emitted_greeting
  obtain ⟨hlength, hslots, hfunctions⟩ : greetingCodes.length = 2 ∧
      greetingTables.slots.length = 1 ∧
      greetingTables.imports.length + 1 + greetingTables.subroutines.length = 21 := by
    decide +kernel
  obtain ⟨-, -, hbodies⟩ :=
    code_hasType (h := .console) Bindings.resolve_support ht hcodes greeting_isTypedIn
  rw [hslots, hfunctions] at hbodies
  exact ⟨ht, hcodes, greeting_isTypedIn, hlength, hbodies⟩

end ScriptWasm
