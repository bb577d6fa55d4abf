import ScriptWasm.Proofs.Emission.Resolution
import ScriptWasm.Proofs.Typing.Expressions

/-!
# Types of statements

The code of a statement leaves the stack of its block empty, or jumps. It stands in blocks that take
nothing along, so a jump needs nothing on the stack either. The locals of a routine are known only
when all of it has been emitted; a context is asked for those that there are behind a statement, and
has those in front of it as well.
-/

namespace ScriptWasm

open Wasm

/-- The first locals of a context are words. -/
def Wasm.Context.HasWords (c : Context) (n : Nat) : Prop := ∀ i < n, c.locals[i]? = some .i32

theorem Wasm.Context.HasWords.mono {c : Context} {n k : Nat} (h : c.HasWords n) (hk : k ≤ n) :
    c.HasWords k := fun i hi ↦ h i (Nat.lt_of_lt_of_le hi hk)

/-- Open blocks take nothing along, and the segment to run next is a word in a local. -/
structure Scope.IsTyped (s : Scope) (c : Context) (labels : List (List ValType)) : Prop where
  labels : ∀ i < s.depth, labels[i]? = some []
  level : ∀ d ∈ s.dispatch, 0 < d.level ∧ d.level ≤ s.depth
  selector : ∀ d ∈ s.dispatch, c.locals[d.selector]? = some .i32

namespace Scope.IsTyped

variable {s : Scope} {c : Context} {labels : List (List ValType)}

theorem top (routine : Routine) : (Scope.top routine).IsTyped c labels := ⟨nofun, nofun, nofun⟩

theorem opened (hs : s.IsTyped c labels) : s.opened.IsTyped c ([] :: labels) where
  labels i hi := by
    cases i with
    | zero => rfl
    | succ i => exact hs.labels i (Nat.lt_of_succ_lt_succ hi)
  level d hd := ⟨(hs.level d hd).1, Nat.le_succ_of_le (hs.level d hd).2⟩
  selector := hs.selector

/-- Inside a loop that has just been opened. -/
theorem dispatching (hs : s.opened.IsTyped c labels) {selector : Nat}
    (hselector : c.locals[selector]? = some .i32) :
    (s.opened.dispatching selector).IsTyped c labels where
  labels := hs.labels
  level d hd := by
    cases hd
    exact ⟨Nat.succ_pos _, Nat.le_refl _⟩
  selector d hd := by
    cases hd
    exact hselector

/-- Inside further blocks. -/
theorem nested (hs : s.IsTyped c labels) (n : Nat) :
    { s with depth := s.depth + n }.IsTyped c (List.replicate n [] ++ labels) := by
  induction n with
  | zero => exact hs
  | succ n ih => exact ih.opened

end Scope.IsTyped

theorem Registry.CoversStmts.segment {r : Registry} {ds : List Demand} {body part : List Stmt}
    (h : r.CoversStmts ds body) (hpart : part ∈ segments body) : r.CoversStmts ds part := by
  obtain ⟨⟨kind, ha⟩, hd⟩ := h
  have hsub := subset_of_mem_segments hpart
  exact ⟨⟨kind, ha.of_subset hsub⟩, fun d hmem ↦ hd (stmtsDemands_subset hsub hmem)⟩

namespace Setting.IsTyped

variable {w : Setting} {c : Context} {ds : List Demand} {labels : List (List ValType)}
  {before after : Locals}

/-! ## Assignments -/

theorem transforms_lowerStore (hw : w.IsTyped c ds) {value : Expr}
    (hvalue : w.host.registry.CoversExpr ds value) {indices : List Expr}
    (hindices : w.host.registry.CoversExprs ds indices) {array : Nat} {code : List Instr}
    (hcode : w.lowerStore array value indices before = .ok (code, after))
    (hlocals : c.HasWords after.length) (harray : array < before.length) :
    Transforms c labels [] [.i32] code := by
  induction indices generalizing array before code with
  | nil => cases hcode
  | cons first rest ih =>
    obtain ⟨hfirst, hrest⟩ := Registry.coversExprs_cons_iff.mp hindices
    have hgrown : before.length ≤ after.length :=
      (w.grows_lowerStore value (first :: rest) array).length_le hcode
    have hget : Transforms c labels [] [.i32] [.localGet array] :=
      .localGet (hlocals _ (Nat.lt_of_lt_of_le harray hgrown))
    cases rest with
    | nil =>
      simp only [lowerStore, Lowering.bind_eq_ok_iff, Lowering.lift_eq_ok_iff,
        Lowering.pure_eq_ok_iff] at hcode
      obtain ⟨icode, _, ⟨hi, rfl⟩, vcode, _, ⟨hv, rfl⟩, set, _, ⟨hset, rfl⟩, heq⟩ := hcode
      cases heq
      exact ((hget.append ((hw.transforms_lowerExpr hfirst hi).frame [.i32])).append
        ((hw.transforms_lowerExpr hvalue hv).frame [.i32, .i32])).append
        (hw.transforms_callOperator hset)
    | cons second rest =>
      simp only [lowerStore, Lowering.bind_eq_ok_iff, Lowering.lift_eq_ok_iff,
        Lowering.addLocal_eq_ok_iff, Lowering.pure_eq_ok_iff] at hcode
      obtain ⟨position, _, ⟨rfl, rfl⟩, inner, _, ⟨rfl, rfl⟩, icode, _, ⟨hi, rfl⟩, get, _,
        ⟨hg, rfl⟩, scode, _, hs, set, _, ⟨hset, rfl⟩, heq⟩ := hcode
      cases heq
      have hnew := (w.grows_lowerStore _ _ _).length_le hs
      simp only [List.length_append, List.length_singleton] at hnew
      have hposition : c.locals[before.length]? = some .i32 := hlocals _ (by omega)
      have hinner : c.locals[(before ++ [ValType.i32]).length]? = some .i32 :=
        hlocals _ (by rw [List.length_append, List.length_singleton]; omega)
      have hfetch : Transforms c labels [.i32] [.i32, .i32] [.localSet before.length,
          .localGet array, .localGet before.length, get,
          .localSet (before ++ [ValType.i32]).length, .localGet array, .localGet before.length] :=
        .cons (.localSet hposition) (.cons hget
          (.cons ((Transforms.localGet hposition).frame [.i32])
            (.cons (hw.transforms_callOperator hg) (.cons (.localSet hinner)
              (.cons hget ((Transforms.localGet hposition).frame [.i32]))))))
      exact (((hw.transforms_lowerExpr hfirst hi).append hfetch).append
        ((ih hrest hs (by simp)).frame [.i32, .i32])).append (hw.transforms_callOperator hset)

theorem transforms_lowerAssign (hw : w.IsTyped c ds) {value : Expr} {target : Target}
    (ha : w.host.registry.AdmitsAssign value target)
    (hd : w.host.registry.assignDemands value target ⊆ ds) {code : List Instr}
    (hcode : w.lowerAssign value target before = .ok (code, after))
    (hlocals : c.HasWords after.length) : Transforms c labels [] [] code := by
  match target with
  | .variable name =>
    simp only [lowerAssign, Lowering.bind_eq_ok_iff, Lowering.lift_eq_ok_iff,
      Lowering.pure_eq_ok_iff] at hcode
    obtain ⟨vcode, _, ⟨hv, rfl⟩, slot, _, ⟨hslot, rfl⟩, heq⟩ := hcode
    cases heq
    exact (hw.transforms_lowerExpr ⟨ha, hd⟩ hv).append (.globalSet (hw.globals_slot hslot))
  | .index array indices =>
    obtain ⟨hindices, hvalue⟩ := List.append_subset.mp hd
    simp only [lowerAssign, Lowering.bind_eq_ok_iff, Lowering.lift_eq_ok_iff,
      Lowering.addLocal_eq_ok_iff, Lowering.pure_eq_ok_iff] at hcode
    obtain ⟨slot, before, ⟨hslot, rfl⟩, whole, _, ⟨rfl, rfl⟩, store, _, hstore, heq⟩ := hcode
    cases heq
    have hgrown := (w.grows_lowerStore _ _ _).length_le hstore
    rw [List.length_append, List.length_singleton] at hgrown
    have hwhole : c.locals[before.length]? = some .i32 := hlocals _ hgrown
    have hglobal := hw.globals_slot hslot
    have hload : Transforms c labels [] [] [.globalGet slot, .localSet before.length] :=
      .cons (.globalGet hglobal) (.localSet hwhole)
    exact (hload.append (hw.transforms_lowerStore ⟨ha.2, hvalue⟩ ⟨ha.1, hindices⟩ hstore hlocals
      (by simp))).append (.globalSet hglobal)
  | .property type name =>
    obtain ⟨hsetter, hvalue⟩ := List.append_subset.mp hd
    simp only [lowerAssign, Lowering.bind_eq_ok_iff, Lowering.lift_eq_ok_iff,
      Lowering.pure_eq_ok_iff, Host.setter_eq_ok_iff] at hcode
    obtain ⟨source, _, ⟨⟨p, hp, hs⟩, rfl⟩, vcode, _, ⟨hv, rfl⟩, call, _, ⟨hcall, rfl⟩, heq⟩ :=
      hcode
    cases heq
    have hmem : .function source setterSignature ∈ ds := hsetter (by
      simp [Registry.setterDemands, hp, hs])
    exact (hw.transforms_lowerExpr ⟨ha.2, hvalue⟩ hv).append
      (transforms_callImport (hw.members _ _ hmem) hcall)
  | .event type name =>
    cases value with
    | «variable» handler =>
      simp only [lowerAssign, Lowering.bind_eq_ok_iff, Lowering.lift_eq_ok_iff,
        Lowering.pure_eq_ok_iff, Host.event_eq_ok_iff] at hcode
      obtain ⟨e, _, ⟨he, rfl⟩, index, _, ⟨-, rfl⟩, call, _, ⟨hcall, rfl⟩, heq⟩ := hcode
      cases heq
      have hmem : .function e.subscribe setterSignature ∈ ds := hd (by
        simp [Registry.assignDemands, Registry.eventDemands, he])
      exact .cons (.i32Const _) (transforms_callImport (hw.members _ _ hmem) hcall)
    | _ => simp [lowerAssign] at hcode

/-! ## Loops -/

theorem transforms_compareEnd (hw : w.IsTyped c ds) {slot stop : Nat}
    (hslot : c.globals[slot]? = some ⟨.i32, true⟩) (hstop : c.locals[stop]? = some .i32)
    {op : Operator} (hop : op.signature.params = [.i32, .i32]) {code : List Instr}
    (hcode : w.compareEnd op slot stop = .ok code) : Transforms c labels [] [.i32] code := by
  simp only [compareEnd, bind_eq_ok_iff, pure_eq_ok_iff] at hcode
  obtain ⟨call, hcall, rfl⟩ := hcode
  have htyped : Transforms c labels _ _ _ := hw.transforms_callOperator hcall
  rw [hop] at htyped
  exact .cons (.globalGet hslot) (.cons ((Transforms.localGet hstop).frame [.i32]) htyped)

theorem transforms_lowerDescending (hw : w.IsTyped c ds) {by_ flag : Nat} {code : List Instr}
    (hcode : w.lowerDescending by_ before = .ok ((flag, code), after))
    (hlocals : c.HasWords after.length) (hby : c.locals[by_]? = some .i32) :
    Transforms c labels [] [] code ∧ c.locals[flag]? = some .i32 := by
  simp only [lowerDescending, Lowering.bind_eq_ok_iff, Lowering.lift_eq_ok_iff,
    Lowering.addLocal_eq_ok_iff, Lowering.pure_eq_ok_iff] at hcode
  obtain ⟨_, _, ⟨rfl, rfl⟩, zero, _, ⟨hzero, rfl⟩, less, _, ⟨hless, rfl⟩, call, _, ⟨hcall, rfl⟩,
    heq⟩ := hcode
  cases heq
  have hflag : c.locals[before.length]? = some .i32 := hlocals _ (by simp)
  have hload : Transforms c labels [] [.i32, .i32] (.localGet by_ :: zero) :=
    .cons (.localGet hby) ((hw.transforms_lowerNumber hzero).frame [.i32])
  exact ⟨hload.append (.cons (hw.transforms_callOperator hless)
    (.cons (hw.transforms_callOperator hcall) (.localSet hflag))), hflag⟩

/-- What stands in front of a counting loop leaves nothing, and its condition leaves a word. -/
theorem transforms_lowerBounds (hw : w.IsTyped c ds) {slot stop by_ : Nat} {start last : Expr}
    {step : Option Expr} (hslot : c.globals[slot]? = some ⟨.i32, true⟩)
    (hstart : w.host.registry.CoversExpr ds start) (hlast : w.host.registry.CoversExpr ds last)
    (hstep : w.host.registry.CoversExprs ds step.toList) {enter condition : List Instr}
    (hcode : w.lowerBounds slot stop by_ start last step before = .ok ((enter, condition), after))
    (hlocals : c.HasWords after.length) (hstop : c.locals[stop]? = some .i32)
    (hby : c.locals[by_]? = some .i32) :
    Transforms c labels [] [] enter ∧ Transforms c labels [] [.i32] condition := by
  cases step with
  | none =>
    simp only [lowerBounds, Lowering.bind_eq_ok_iff, Lowering.lift_eq_ok_iff,
      Lowering.pure_eq_ok_iff] at hcode
    obtain ⟨scode, _, ⟨hs, rfl⟩, lcode, _, ⟨hl, rfl⟩, ncode, _, ⟨hn, rfl⟩, up, _, ⟨hup, rfl⟩,
      call, _, ⟨hcall, rfl⟩, heq⟩ := hcode
    cases heq
    exact ⟨(((hw.transforms_lowerExpr hstart hs).append
        (.cons (.globalSet hslot) (hw.transforms_lowerExpr hlast hl))).append
        (.cons (.localSet hstop) (hw.transforms_lowerNumber hn))).append (.localSet hby),
      (hw.transforms_compareEnd hslot hstop rfl hup).append (hw.transforms_callOperator hcall)⟩
  | some step =>
    simp only [lowerBounds, Lowering.bind_eq_ok_iff, Lowering.lift_eq_ok_iff,
      Lowering.pure_eq_ok_iff] at hcode
    obtain ⟨scode, _, ⟨hs, rfl⟩, lcode, _, ⟨hl, rfl⟩, bcode, _, ⟨hb, rfl⟩,
      ⟨flag, descending⟩, _, hdescending, down, _, ⟨hdown, rfl⟩, up, _, ⟨hup, rfl⟩,
      call, _, ⟨hcall, rfl⟩, heq⟩ := hcode
    cases heq
    obtain ⟨hstep, -⟩ := Registry.coversExprs_cons_iff.mp hstep
    obtain ⟨hdescends, hflag⟩ := hw.transforms_lowerDescending hdescending hlocals hby
    have hchoose : Transforms c labels [.i32] [.i32] [.ifElse (.value .i32) down up] :=
      (hw.transforms_compareEnd hslot hstop rfl hdown).hasType.ifElse rfl
        (hw.transforms_compareEnd hslot hstop rfl hup).hasType
    exact ⟨(((hw.transforms_lowerExpr hstart hs).append
        (.cons (.globalSet hslot) (hw.transforms_lowerExpr hlast hl))).append
        (.cons (.localSet hstop) (hw.transforms_lowerExpr hstep hb))).append
        (.cons (.localSet hby) hdescends),
      .cons (.localGet hflag) (.cons hchoose (hw.transforms_callOperator hcall))⟩

theorem transforms_whileLoop {condition body : List Instr}
    (hcondition : Transforms c ([] :: [] :: labels) [] [.i32] condition)
    (hbody : IsNeutral c ([] :: [] :: labels) body) :
    Transforms c labels [] [] [whileLoop condition body] := by
  have htest : Transforms c ([] :: [] :: labels) [] [] (condition ++ [.i32Eqz, .brIf 1]) :=
    hcondition.append (.cons .i32Eqz (.brIf rfl))
  have hloop : IsNeutral c ([] :: [] :: labels)
      (condition ++ [.i32Eqz, .brIf 1] ++ body ++ [.br 0]) :=
    ((IsNeutral.of_transforms htest).append hbody).append (.br rfl)
  exact ((hloop.hasType.loop rfl).hasType).block rfl

theorem transforms_conditional {yes : List Instr} {no : Option (List Instr)}
    (hyes : IsNeutral c ([] :: labels) yes) (hno : ∀ code ∈ no, IsNeutral c ([] :: labels) code) :
    Transforms c labels [.i32] [] [conditional yes no] := by
  cases no with
  | none => exact hyes.hasType.ifThen rfl rfl
  | some code => exact hyes.hasType.ifElse rfl (hno code rfl).hasType

/-! ## Statements -/

/-- A `goto` branches to the loop around the segments. -/
theorem isNeutral_goto {s : Scope} (hs : s.IsTyped c labels) {selector depth : Nat}
    (hjump : s.jump = .ok (selector, depth)) (x : UInt32) :
    IsNeutral c labels [.i32Const x, .localSet selector, .br depth] := by
  cases hd : s.dispatch with
  | none => simp [Scope.jump, hd] at hjump
  | some d =>
    rw [Scope.jump, hd] at hjump
    cases hjump
    obtain ⟨hpos, hle⟩ := hs.level d hd
    have hselect : Transforms c labels [] [] [.i32Const x, .localSet d.selector] :=
      .cons (.i32Const x) (.localSet (hs.selector d hd))
    exact (IsNeutral.of_transforms hselect).append (.br (hs.labels _ (by omega)))

mutual

theorem isNeutral_lowerStmt (hw : w.IsTyped c ds) {s : Scope} {labels : List (List ValType)}
    (hs : s.IsTyped c labels) {st : Stmt} (hst : w.host.registry.CoversStmt ds st)
    {before after : Locals} {code : List Instr}
    (hcode : w.lowerStmt s st before = .ok (code, after)) (hlocals : c.HasWords after.length) :
    IsNeutral c labels code := by
  match st with
  | .assign target value _ =>
    obtain ⟨⟨kind, ha⟩, hd⟩ := hst
    exact .of_transforms (hw.transforms_lowerAssign ha hd hcode hlocals)
  | .call type method args _ =>
    obtain ⟨⟨kind, ⟨m, hm, hcount, -⟩, hargs⟩, hd⟩ := hst
    obtain ⟨hdcall, hdargs⟩ := List.append_subset.mp hd
    simp only [lowerStmt, Lowering.bind_eq_ok_iff, Lowering.lift_eq_ok_iff, Lowering.pure_eq_ok_iff,
      Host.method_eq_ok_iff.mpr hm, Except.ok.injEq] at hcode
    obtain ⟨_, _, ⟨rfl, rfl⟩, acode, _, ⟨hacode, rfl⟩, call, _, ⟨hcall, rfl⟩, heq⟩ := hcode
    cases heq
    have hmem : .function m.source m.signature ∈ ds := hdcall (by simp [Registry.callDemands, hm])
    have hparams : m.signature.params = List.replicate args.length .i32 := by
      rw [MethodDescriptor.signature, hcount]
    have htyped : Transforms c labels _ _ [call] :=
      transforms_callImport (hw.members _ _ hmem) hcall
    rw [hparams] at htyped
    have hdrop : Transforms c labels m.signature.results []
        (if m.returnsValue then [.drop] else []) := by
      rw [MethodDescriptor.signature]
      cases m.returnsValue with
      | true => exact .drop .i32
      | false => exact .nil
    exact .of_transforms ((hw.transforms_lowerArgs ⟨hargs, hdargs⟩ hacode).append
      (htyped.append hdrop))
  | .cond condition body arms otherwise _ =>
    obtain ⟨hcondition, hbody, harms, hotherwise⟩ := hst.cond
    simp only [lowerStmt, Lowering.bind_eq_ok_iff, Lowering.lift_eq_ok_iff,
      Lowering.pure_eq_ok_iff] at hcode
    obtain ⟨ccode, _, ⟨hccode, rfl⟩, yes, mid, hyes, no, _, hno, heq⟩ := hcode
    cases heq
    have hgrown := (w.grows_lowerArms _ _ (w.grows_lowerOtherwise otherwise)).length_le hno
    exact .of_transforms ((hw.transforms_lowerCondition hcondition hccode).append
      (transforms_conditional (isNeutral_lowerStmts hw hs.opened hbody hyes (hlocals.mono hgrown))
        (isNeutral_lowerArms hw hs.opened harms (fun _ _ _ _ _ hs hcode hlocals ↦
          isNeutral_lowerStmts hw hs hotherwise hcode hlocals) hno hlocals)))
  | .while condition body _ =>
    obtain ⟨hcondition, hbody⟩ := hst.while
    simp only [lowerStmt, Lowering.bind_eq_ok_iff, Lowering.lift_eq_ok_iff,
      Lowering.pure_eq_ok_iff] at hcode
    obtain ⟨ccode, _, ⟨hccode, rfl⟩, bcode, _, hbcode, heq⟩ := hcode
    cases heq
    exact .of_transforms (transforms_whileLoop (hw.transforms_lowerCondition hcondition hccode)
      (isNeutral_lowerStmts hw hs.opened.opened hbody hbcode hlocals))
  | .for name start last step body _ =>
    obtain ⟨hstart, hlast, hstep, hbody⟩ := hst.for
    simp only [lowerStmt, Lowering.bind_eq_ok_iff, Lowering.lift_eq_ok_iff,
      Lowering.addLocal_eq_ok_iff, Lowering.pure_eq_ok_iff] at hcode
    obtain ⟨slot, before, ⟨hslot, rfl⟩, stop, _, ⟨rfl, rfl⟩, by_, _, ⟨rfl, rfl⟩,
      ⟨enter, condition⟩, mid, hbounds, bcode, _, hbcode, add, _, ⟨hadd, rfl⟩, heq⟩ := hcode
    cases heq
    have hbody' := (w.grows_lowerStmts _ body).length_le hbcode
    have hbounds' := (w.grows_lowerBounds _ _ _ _ _ _).length_le hbounds
    simp only [List.length_append, List.length_singleton] at hbounds'
    have hglobal := hw.globals_slot hslot
    have hstop : c.locals[before.length]? = some .i32 := hlocals _ (by omega)
    have hby : c.locals[(before ++ [ValType.i32]).length]? = some .i32 :=
      hlocals _ (by rw [List.length_append, List.length_singleton]; omega)
    have hnext : Transforms c ([] :: [] :: labels) [] []
        [.globalGet slot, .localGet (before ++ [ValType.i32]).length, add, .globalSet slot] :=
      .cons (.globalGet hglobal) (.cons ((Transforms.localGet hby).frame [.i32])
        (.cons (hw.transforms_callOperator hadd) (.globalSet hglobal)))
    have hwords := hlocals.mono hbody'
    have henter : Transforms c labels [] [] enter :=
      (hw.transforms_lowerBounds hglobal hstart hlast hstep hbounds hwords hstop hby).1
    have hcondition : Transforms c ([] :: [] :: labels) [] [.i32] condition :=
      (hw.transforms_lowerBounds hglobal hstart hlast hstep hbounds hwords hstop hby).2
    exact .of_transforms (henter.append (transforms_whileLoop hcondition
      ((isNeutral_lowerStmts hw hs.opened.opened hbody hbcode hlocals).append
        (.of_transforms hnext))))
  | .goto name _ =>
    simp only [lowerStmt, Lowering.bind_eq_ok_iff, Lowering.lift_eq_ok_iff,
      Lowering.pure_eq_ok_iff] at hcode
    obtain ⟨segment, _, ⟨-, rfl⟩, ⟨selector, depth⟩, _, ⟨hjump, rfl⟩, heq⟩ := hcode
    cases heq
    exact isNeutral_goto hs hjump _
  | .callSub name _ =>
    simp only [lowerStmt, Lowering.bind_eq_ok_iff, Lowering.lift_eq_ok_iff,
      Lowering.pure_eq_ok_iff] at hcode
    obtain ⟨index, _, ⟨hindex, rfl⟩, heq⟩ := hcode
    cases heq
    exact .of_transforms (.call (hw.routines _ (Tables.lt_of_subroutine hindex)))
  | .label .. | .sub .. | .empty .. =>
    cases hcode
    exact .nil

theorem isNeutral_lowerStmts (hw : w.IsTyped c ds) {s : Scope} {labels : List (List ValType)}
    (hs : s.IsTyped c labels) {body : List Stmt} (hbody : w.host.registry.CoversStmts ds body)
    {before after : Locals} {code : List Instr}
    (hcode : w.lowerStmts s body before = .ok (code, after)) (hlocals : c.HasWords after.length) :
    IsNeutral c labels code := by
  match body with
  | [] =>
    cases hcode
    exact .nil
  | st :: rest =>
    obtain ⟨hst, hrest⟩ := hbody.cons
    simp only [lowerStmts, Lowering.bind_eq_ok_iff, Lowering.pure_eq_ok_iff] at hcode
    obtain ⟨scode, mid, hscode, rcode, _, hrcode, heq⟩ := hcode
    cases heq
    have hgrown := (w.grows_lowerStmts s rest).length_le hrcode
    exact (isNeutral_lowerStmt hw hs hst hscode (hlocals.mono hgrown)).append
      (isNeutral_lowerStmts hw hs hrest hrcode hlocals)

theorem isNeutral_lowerArms (hw : w.IsTyped c ds) {s : Scope} {labels : List (List ValType)}
    (hs : s.IsTyped c labels) {arms : List Arm} (harms : w.host.registry.CoversArms ds arms)
    {otherwise : List Stmt} (hotherwise : ∀ ⦃s labels before code after⦄, s.IsTyped c labels →
      w.lowerStmts s otherwise before = .ok (code, after) → c.HasWords after.length →
      IsNeutral c labels code) {before after : Locals} {code : Option (List Instr)}
    (hcode : w.lowerArms s arms (w.lowerOtherwise otherwise) before = .ok (code, after))
    (hlocals : c.HasWords after.length) : ∀ no ∈ code, IsNeutral c labels no := by
  match arms with
  | [] =>
    rw [lowerArms, lowerOtherwise] at hcode
    split at hcode
    · cases hcode
      nofun
    · obtain ⟨ocode, _, hocode, heq⟩ := Lowering.map_eq_ok_iff.mp hcode
      cases heq
      rintro _ ⟨⟩
      exact hotherwise hs hocode hlocals
  | .mk condition body :: rest =>
    obtain ⟨hcondition, hbody, hrest⟩ := harms.cons
    simp only [lowerArms, Lowering.bind_eq_ok_iff, Lowering.lift_eq_ok_iff,
      Lowering.pure_eq_ok_iff] at hcode
    obtain ⟨ccode, _, ⟨hccode, rfl⟩, yes, mid, hyes, no, _, hno, heq⟩ := hcode
    cases heq
    have hgrown := (w.grows_lowerArms _ _ (w.grows_lowerOtherwise otherwise)).length_le hno
    rintro _ ⟨⟩
    exact .of_transforms ((hw.transforms_lowerCondition hcondition hccode).append
      (transforms_conditional (isNeutral_lowerStmts hw hs.opened hbody hyes (hlocals.mono hgrown))
        (isNeutral_lowerArms hw hs.opened hrest hotherwise hno hlocals)))

end

/-! ## Routines -/


/-- Segments behind blocks, around code that may branch out of any of the blocks. -/
theorem isNeutral_nestSegments (hw : w.IsTyped c ds) {s : Scope} (hs : s.IsTyped c labels)
    {parts : List (List Stmt)} (hparts : ∀ part ∈ parts, w.host.registry.CoversStmts ds part)
    {codes : List (List Instr)} (hcodes : w.lowerSegments s parts before = .ok (codes, after))
    (hlocals : c.HasWords after.length) {inner : List Instr}
    (hinner : IsNeutral c (List.replicate parts.length [] ++ labels) inner) :
    IsNeutral c labels (nestSegments inner codes) := by
  induction parts generalizing before codes inner with
  | nil =>
    cases hcodes
    exact hinner
  | cons part rest ih =>
    obtain ⟨hpart, hrest⟩ := List.forall_mem_cons.mp hparts
    simp only [lowerSegments, Lowering.bind_eq_ok_iff, Lowering.pure_eq_ok_iff] at hcodes
    obtain ⟨code, mid, hcode, others, _, hothers, heq⟩ := hcodes
    cases heq
    have hgrown := (w.grows_lowerSegments s rest).length_le hothers
    have hcode' := isNeutral_lowerStmts hw (hs.nested rest.length) hpart hcode
      (hlocals.mono hgrown)
    exact ih hrest hothers ((IsNeutral.of_transforms (hinner.hasType.block rfl)).append hcode')

theorem isNeutral_lowerRoutine (hw : w.IsTyped c ds) {routine : Routine} {body : List Stmt}
    (hbody : w.host.registry.CoversStmts ds body) {code : List Instr}
    (hcode : w.lowerRoutine routine body before = .ok (code, after))
    (hlocals : c.HasWords after.length) : IsNeutral c labels code := by
  obtain ⟨-, hcode⟩ | ⟨codes, hcodes, rfl⟩ := w.lowerRoutine_cases hcode
  · exact isNeutral_lowerStmts hw (.top routine) hbody hcode hlocals
  · have hgrown := (w.grows_lowerSegments _ _).length_le hcodes
    rw [List.length_append, List.length_singleton] at hgrown
    have hselector : c.locals[before.length]? = some .i32 := hlocals _ hgrown
    have hcount : 0 < (segments body).length :=
      List.length_pos_iff.mpr (segments_ne_nil body)
    have hlabels (i : Nat) (hi : i < (segments body).length) :
        (List.replicate (segments body).length [] ++ ([] :: labels))[i]? = some [] := by
      rw [List.getElem?_append_left (by simpa using hi), List.getElem?_replicate, if_pos hi]
    have hchoose : IsNeutral c _ ([.localGet before.length] ++
        [.brTable (List.range (segments body).length) ((segments body).length - 1)]) :=
      .brTable (.localGet hselector) (fun d hd ↦ hlabels d (List.mem_range.mp hd))
        (hlabels _ (Nat.sub_one_lt_of_lt hcount))
    have hsegments := hw.isNeutral_nestSegments (.dispatching (.opened (.top routine)) hselector)
      (fun part hpart ↦ hbody.segment hpart) hcodes hlocals hchoose
    exact .of_transforms (hsegments.hasType.loop rfl)


end Setting.IsTyped

end ScriptWasm
