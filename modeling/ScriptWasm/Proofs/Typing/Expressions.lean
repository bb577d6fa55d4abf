import ScriptWasm.Proofs.Emission.Locals
import ScriptWasm.Proofs.Library.Binding
import ScriptWasm.Proofs.Program.Parts
import ScriptWasm.Proofs.Typing.Rules

/-!
# Types of expressions

The code of an expression puts one word on the stack. That is so in every context in which functions
have the types that they are used with, and slots are words; nothing else of the context matters, so
one assumption serves a whole program.
-/

namespace ScriptWasm

open Wasm

/-- An imported function has a type. -/
def Tables.TypesImport (t : Tables) (c : Context) (source : ImportRef) (type : FuncType) : Prop :=
  ∀ i ∈ t.importIndex? source, c.function? i = some type

instance (t : Tables) (c : Context) (source : ImportRef) (type : FuncType) :
    Decidable (t.TypesImport c source type) :=
  inferInstanceAs (Decidable (∀ i ∈ t.importIndex? source, c.function? i = some type))

/-- A context gives code what it refers to, at the types that it is used with. -/
structure Setting.IsTyped (w : Setting) (c : Context) (ds : List Demand) : Prop where
  operators : ∀ op, w.tables.TypesImport c (w.host.operators.handle op).source op.signature
  members : ∀ source type, .function source type ∈ ds → w.tables.TypesImport c source type
  routines : ∀ i < w.tables.subroutines.length,
    c.function? (w.tables.function (.subroutine i)) = some ⟨[], []⟩
  globals : ∀ i < w.tables.slots.length, c.globals[i]? = some ⟨.i32, true⟩

namespace Setting.IsTyped

variable {w : Setting} {c : Context} {ds : List Demand} {labels : List (List ValType)}

/-! ## Calls and variables -/

theorem transforms_callImport {source : ImportRef} {type : FuncType}
    (hsource : w.tables.TypesImport c source type) {i : Instr} (hi : w.callImport source = .ok i) :
    Transforms c labels type.params type.results [i] := by
  obtain ⟨f, hf, rfl⟩ := map_eq_ok_iff.mp hi
  rw [Tables.imported] at hf
  split at hf
  · rename_i j hj
    cases hf
    exact .call (hsource _ hj)
  · cases hf

theorem transforms_callOperator (hw : w.IsTyped c ds) {op : Operator} {i : Instr}
    (hi : w.callOperator op = .ok i) : Transforms c labels op.signature.params [.i32] [i] := by
  rw [← op.results_signature]
  exact transforms_callImport (hw.operators op) hi

theorem globals_slot (hw : w.IsTyped c ds) {name : String} {i : Nat}
    (hi : w.tables.slot name = .ok i) : c.globals[i]? = some ⟨.i32, true⟩ :=
  hw.globals i (Tables.lt_of_slot hi)

theorem transforms_lowerNumber (hw : w.IsTyped c ds) {x : Binary64} {code : List Instr}
    (hcode : w.lowerNumber x = .ok code) : Transforms c labels [] [.i32] code := by
  simp only [lowerNumber, bind_eq_ok_iff, pure_eq_ok_iff] at hcode
  obtain ⟨call, hcall, rfl⟩ := hcode
  exact .cons (.f64Const x) (hw.transforms_callOperator hcall)

/-! ## Expressions -/

mutual

theorem transforms_lowerExpr (hw : w.IsTyped c ds) {e : Expr}
    (he : w.host.registry.CoversExpr ds e) {code : List Instr} (hcode : w.lowerExpr e = .ok code) :
    Transforms c labels [] [.i32] code := by
  obtain ⟨ha, hd⟩ := he
  match e with
  | .number x =>
    rw [lowerExpr] at hcode
    exact hw.transforms_lowerNumber hcode
  | .text text =>
    simp only [lowerExpr, bind_eq_ok_iff, pure_eq_ok_iff] at hcode
    obtain ⟨extent, -, call, hcall, rfl⟩ := hcode
    exact .cons (.i32Const _) (.cons ((Transforms.i32Const _).frame [.i32])
      (hw.transforms_callOperator hcall))
  | .variable name =>
    simp only [lowerExpr, bind_eq_ok_iff, pure_eq_ok_iff] at hcode
    obtain ⟨i, hi, rfl⟩ := hcode
    exact .globalGet (hw.globals_slot hi)
  | .index array indices =>
    simp only [lowerExpr, bind_eq_ok_iff, pure_eq_ok_iff] at hcode
    obtain ⟨i, hi, path, hpath, rfl⟩ := hcode
    exact .cons (.globalGet (hw.globals_slot hi)) (transforms_lowerPath hw ⟨ha, hd⟩ hpath)
  | .property type name =>
    simp only [lowerExpr, bind_eq_ok_iff, pure_eq_ok_iff, Host.getter_eq_ok_iff] at hcode
    obtain ⟨source, ⟨p, hp, hs⟩, call, hcall, rfl⟩ := hcode
    have hmem : .function source getterSignature ∈ ds := hd (by
      simp [Registry.exprDemands, Registry.getterDemands, hp, hs])
    exact transforms_callImport (hw.members _ _ hmem) hcall
  | .call type method args =>
    obtain ⟨⟨m, hm, hcount, hvalue⟩, hargs⟩ := ha
    obtain ⟨hdcall, hdargs⟩ := List.append_subset.mp hd
    simp only [lowerExpr, Host.method_eq_ok_iff.mpr hm, ok_bind, bind_eq_ok_iff,
      pure_eq_ok_iff] at hcode
    obtain ⟨acode, hacode, call, hcall, rfl⟩ := hcode
    have hmem : .function m.source m.signature ∈ ds := hdcall (by
      simp [Registry.callDemands, hm])
    have hsignature : m.signature = ⟨List.replicate args.length .i32, [.i32]⟩ := by
      rw [MethodDescriptor.signature, hcount, if_pos (hvalue rfl)]
    have hmember := hw.members _ _ hmem
    rw [hsignature] at hmember
    exact (transforms_lowerArgs hw ⟨hargs, hdargs⟩ hacode).append
      (transforms_callImport hmember hcall)
  | .binary op left right =>
    obtain ⟨hdleft, hdright⟩ := List.append_subset.mp hd
    simp only [lowerExpr, bind_eq_ok_iff, pure_eq_ok_iff] at hcode
    obtain ⟨lcode, hl, rcode, hr, call, hcall, rfl⟩ := hcode
    have hparams : op.operator.signature.params = [.i32, .i32] := op.params_signature
    have htyped : Transforms c labels _ _ _ := hw.transforms_callOperator hcall
    rw [hparams] at htyped
    exact ((transforms_lowerExpr hw ⟨ha.1, hdleft⟩ hl).append
      ((transforms_lowerExpr hw ⟨ha.2, hdright⟩ hr).frame [.i32])).append htyped
  | .negate operand =>
    simp only [lowerExpr, bind_eq_ok_iff, pure_eq_ok_iff] at hcode
    obtain ⟨ocode, ho, call, hcall, rfl⟩ := hcode
    exact (transforms_lowerExpr hw (e := operand) ⟨ha, hd⟩ ho).append
      (hw.transforms_callOperator hcall)

/-- The code of arguments puts a word on the stack for each. -/
theorem transforms_lowerArgs (hw : w.IsTyped c ds) {es : List Expr}
    (hes : w.host.registry.CoversExprs ds es) {code : List Instr}
    (hcode : w.lowerArgs es = .ok code) :
    Transforms c labels [] (List.replicate es.length .i32) code := by
  match es with
  | [] =>
    cases hcode
    exact .nil
  | e :: rest =>
    obtain ⟨he, hrest⟩ := Registry.coversExprs_cons_iff.mp hes
    simp only [lowerArgs, bind_eq_ok_iff, pure_eq_ok_iff] at hcode
    obtain ⟨ecode, hecode, rcode, hrcode, rfl⟩ := hcode
    exact (transforms_lowerExpr hw he hecode).append
      ((transforms_lowerArgs hw hrest hrcode).frame [.i32])

/-- The code of indices replaces an array by an element. -/
theorem transforms_lowerPath (hw : w.IsTyped c ds) {es : List Expr}
    (hes : w.host.registry.CoversExprs ds es) {code : List Instr}
    (hcode : w.lowerPath es = .ok code) : Transforms c labels [.i32] [.i32] code := by
  match es with
  | [] =>
    cases hcode
    exact .nil
  | e :: rest =>
    obtain ⟨he, hrest⟩ := Registry.coversExprs_cons_iff.mp hes
    simp only [lowerPath, bind_eq_ok_iff, pure_eq_ok_iff] at hcode
    obtain ⟨ecode, hecode, get, hget, rcode, hrcode, rfl⟩ := hcode
    exact ((transforms_lowerExpr hw he hecode).frame [.i32]).append
      (.cons (hw.transforms_callOperator hget) (transforms_lowerPath hw hrest hrcode))

end

theorem transforms_lowerCondition (hw : w.IsTyped c ds) {e : Expr}
    (he : w.host.registry.CoversExpr ds e) {code : List Instr}
    (hcode : w.lowerCondition e = .ok code) : Transforms c labels [] [.i32] code := by
  simp only [lowerCondition, bind_eq_ok_iff, pure_eq_ok_iff] at hcode
  obtain ⟨vcode, hv, call, hcall, rfl⟩ := hcode
  exact (hw.transforms_lowerExpr he hv).append (hw.transforms_callOperator hcall)

end Setting.IsTyped

end ScriptWasm
