import ScriptWasm.Library.Scan
import ScriptWasm.Proofs.Typing.Contexts

/-!
# When imports have the types that they are used with

An import has the type of its first use. Libraries choose the names of their imports freely, so two
members, or a member and an operation, may share one name and differ in type. Nothing looks at that
before a module is put together. So a program without diagnostics gets the imports that it needs
exactly if its uses agree: those of one name are of one type.
-/

namespace ScriptWasm

open Wasm

/-- Uses of one import are of one type. -/
def Host.UsesAgree (h : Host) (p : Program) : Prop :=
  ∀ u ∈ h.uses p, ∀ v ∈ h.uses p, u.1 = v.1 → u.2 = v.2

instance (h : Host) (p : Program) : Decidable (h.UsesAgree p) :=
  inferInstanceAs (Decidable (∀ u ∈ h.uses p, ∀ v ∈ h.uses p, u.1 = v.1 → u.2 = v.2))

/-- Imports have the types that they are used with exactly if uses agree: an import has the type of
its first use. Then every function of the module is valid in its context, unless it has too many
locals or branches, so no call is the reason why a module is not given out. -/
theorem Program.importType?_eq_iff_usesAgree {h : Host} {p : Program} {runtime : Library}
    (hoperators : Bindings.resolve runtime = .ok h.operators) {source : String} {md : Module}
    (hmd : h.module p source = .ok md) :
    (∀ u ∈ h.uses p, md.importType? u.1 = firstType? (h.uses p) u.1) ∧
    ((∀ u ∈ h.uses p, md.importType? u.1 = some u.2) ↔ h.UsesAgree p) ∧
    (h.UsesAgree p → ∀ c, md.context? = some c → ∀ code ∈ md.codes,
      (code.isValid c ⟨[], []⟩ ↔
        code.locals.length ≤ mostLocals ∧ branchesAreFew code.body)) := by
  obtain ⟨t, codes, ht, hcodes, rfl⟩ := Host.module_eq_ok_iff.mp hmd
  have hfirst (source' : ImportRef) : (t.layout codes (.ofTables t source)).importType? source' =
      firstType? (h.uses p) source' := by
    rw [Tables.importType?_layout, (Tables.records_of_ofProgram ht).importType?]
  refine ⟨fun u _ ↦ hfirst u.1, ?_, fun hagree c hc code hcode ↦ ?_⟩
  · simp only [hfirst]
    exact firstType?_eq_iff
  · rw [Tables.codes_layout] at hcode
    have himports (u : ImportRef × FuncType) (hu : u ∈ h.uses p) :
        t.importType? u.1 = some u.2 := by
      rw [(Tables.records_of_ofProgram ht).importType?]
      exact firstType?_eq_iff.mpr hagree u hu
    have htyped := Tables.isTypedIn_of_context? ht himports hc
    obtain ⟨n, hlocals, hneutral⟩ := htyped.isNeutral_of_mem hoperators ht hcodes hcode
    exact Code.isValid_iff hlocals (hneutral [[]]).hasType.checkBody

/-- The greeting is given out: its uses agree, and its functions are short. -/
theorem Program.greeting_usesAgree :
    Host.console.module .greeting "" = .ok greetingModule ∧ Host.console.UsesAgree .greeting ∧
      (∀ u ∈ Host.console.uses .greeting, greetingModule.importType? u.1 = some u.2) ∧
      ∀ code ∈ greetingModule.codes, code.isValid greetingContext ⟨[], []⟩ := by
  obtain ⟨hagree, hshort⟩ : Host.console.UsesAgree .greeting ∧ ∀ code ∈ greetingModule.codes,
      code.locals.length ≤ mostLocals ∧ branchesAreFew code.body := by decide +kernel
  have hcontext : greetingModule.context? = some greetingContext := by
    rw [greetingContext, Option.some_get]
  obtain ⟨-, htypes, hcodes⟩ := importType?_eq_iff_usesAgree (h := .console)
    Bindings.resolve_support module_greeting
  exact ⟨module_greeting, hagree, htypes.mpr hagree, fun code hcode ↦
    (hcodes hagree _ hcontext code hcode).mpr (hshort code hcode)⟩

/-! ## A library that does not agree with itself -/

/-- A library with two methods of one name to import. -/
def Library.clashing : Library where
  module := "clash"
  manifest :=
    { types := [{
        name := "Console"
        isLibraryType := true
        methods := [
          { name := "Clear", field? := some "f" },
          { name := "Write", params := [.primitive], field? := some "f" }] }] }

def Host.clashing : Host := ⟨.scan [.support, .clashing], .usual "runtime"⟩

/-- A program that calls both methods. -/
def Program.clashing : Program where
  symbols := .empty
  body := [.call "Console" "Clear" [] default, .call "Console" "Write" [.text "a"] default]

def Program.clashingModule : Module :=
  match Host.clashing.module .clashing "" with
  | .ok md => md
  | .error _ => []

/-- The program has no diagnostics, and its operations are bound. But the second method is imported
at the type of the first, and the module is not given out. -/
theorem Program.clashing_assemble :
    Bindings.resolve .support = .ok Host.clashing.operators ∧
      clashing.check Host.clashing.registry = [] ∧
      Host.clashing.module .clashing "" = .ok clashingModule ∧
      (∃ u ∈ Host.clashing.uses .clashing, clashingModule.importType? u.1 ≠ some u.2) ∧
      Host.clashing.assemble .clashing "" = .error .invalidModule := by
  obtain ⟨hcheck, hok, hclash, hinvalid⟩ : clashing.check Host.clashing.registry = [] ∧
      (Host.clashing.module .clashing "").isOk ∧
      (∃ u ∈ Host.clashing.uses .clashing, clashingModule.importType? u.1 ≠ some u.2) ∧
      ¬clashingModule.isValid := by decide +kernel
  have hmodule : Host.clashing.module .clashing "" = .ok clashingModule := by
    obtain ⟨md, hmd⟩ := exists_of_isOk hok
    delta clashingModule
    rw [hmd]
  have hassemble : Host.clashing.assemble .clashing "" = .error .invalidModule := by
    rw [Host.assemble, hmodule, ok_bind, if_neg hinvalid]
    rfl
  exact ⟨Bindings.resolve_support, hcheck, hmodule, hclash, hassemble⟩

end ScriptWasm
