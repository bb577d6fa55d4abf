import ScriptWasm.Emission.Tables
import ScriptWasm.Proofs.Sequencing

/-!
# Bound operations

An operation that has been bound has the parameters and the result that it needs, so its signature
is known from the operation alone. Every operation gives one word.
-/

namespace ScriptWasm

open Wasm

/-- The signature that an operation needs. -/
def Operator.signature (op : Operator) : FuncType :=
  ⟨op.params.flatMap TypeRef.paramTypes, op.returns.resultTypes⟩

namespace Operator

theorem mem_all (op : Operator) : op ∈ all := by
  cases op <;> decide

theorem getElem?_index (op : Operator) : all[op.index]? = some op := by
  cases op <;> rfl

theorem results_signature (op : Operator) : op.signature.results = [.i32] := by
  cases op <;> rfl

end Operator

theorem BinaryOp.params_signature (op : BinaryOp) :
    op.operator.signature.params = [.i32, .i32] := by
  cases op <;> rfl

namespace Bindings

variable {runtime : Library} {b : Bindings}

theorem bindOne_eq_ok {module : String} {t : TypeDecl} {op : Operator} {h : Handle}
    (hb : bindOne module t op = .ok h) : h.params = op.params ∧ h.returns = op.returns := by
  rw [bindOne] at hb
  split at hb
  · rename_i m hm
    have hfits := List.find?_some hm
    simp only [Operator.fits, Bool.and_eq_true, decide_eq_true_eq] at hfits
    cases hb
    exact ⟨hfits.1.2, hfits.2⟩
  · cases hb

/-- Bound operations have the signatures that they need. -/
theorem signature_of_resolve (hb : resolve runtime = .ok b) (op : Operator) :
    (b.handle op).signature = op.signature := by
  simp only [resolve] at hb
  split at hb
  · cases hb
  · rw [map_eq_ok_iff] at hb
    obtain ⟨handles, hhandles, rfl⟩ := hb
    obtain ⟨h, hget, hbind⟩ := (mapM_eq_ok hhandles).2 op.getElem?_index
    obtain ⟨hparams, hreturns⟩ := bindOne_eq_ok hbind
    have hh : (ofHandles handles).handle op = h := by simp [ofHandles, hget]
    rw [hh, Handle.signature, hparams, hreturns, Operator.signature]

/-- Operations that are imported from a module under their usual names. -/
def usual (module : String) : Bindings :=
  ⟨fun op ↦ ⟨op.methodName, ⟨module, op.usualField⟩, op.params, op.returns⟩⟩

end Bindings

/-- A support library that follows the usual names. -/
def Library.support : Library := ⟨"runtime", { types := [.primitive] }⟩

theorem Bindings.resolve_support : resolve .support = .ok (.usual "runtime") := by
  have hbound : resolve .support =
      .ok (ofHandles (Operator.all.map fun op ↦ (usual "runtime").handle op)) := rfl
  have heq : ofHandles (Operator.all.map fun op ↦ (usual "runtime").handle op) = usual "runtime" :=
    congrArg Bindings.mk (funext fun op ↦ by cases op <;> rfl)
  rw [hbound, heq]

end ScriptWasm
