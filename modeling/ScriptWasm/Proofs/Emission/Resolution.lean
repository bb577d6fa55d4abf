import ScriptWasm.Emission.Assemble
import ScriptWasm.Proofs.Emission.Growth

/-!
# When code can be emitted

The second walk looks things up and never adds anything, so whether it succeeds depends on each look
up alone. Library members, texts and operations were provided by the first walk. What is left are
the names that the program itself declares: the code of a routine can be emitted exactly if its
variables, labels and subroutines are resolved.

A `goto` also needs the loop that it goes back to. There is one in every routine with labels, and in
a routine without labels no `goto` is resolved.
-/

namespace ScriptWasm

open Wasm

namespace Tables

variable {t : Tables}

theorem lastIndex?_isSome_iff {name : String} {names : List String} :
    (lastIndex? name names).isSome ↔ name ∈ names := by
  rw [lastIndex?, Option.isSome_map, List.idxOf?, List.findIdx?_isSome, List.any_eq_true]
  simp

theorem slot_succeedsIff (name : String) : SucceedsIff (t.slot name) (name ∈ t.slots) := by
  rw [SucceedsIff, slot, ← lastIndex?_isSome_iff]
  cases lastIndex? name t.slots <;> simp

theorem subroutine_succeedsIff (name : String) :
    SucceedsIff (t.subroutine name) (name ∈ t.subroutines) := by
  rw [SucceedsIff, subroutine]
  cases h : t.subroutines.idxOf? name with
  | none => simpa using List.idxOf?_eq_none_iff.mp h
  | some i => simpa using List.isSome_idxOf?.mp (by rw [h, Option.isSome_some])

theorem label_succeedsIff (routine : Routine) (name : String) :
    SucceedsIff (t.label routine name) (name ∈ t.labelsOf routine) := by
  rw [SucceedsIff, label]
  cases h : (t.labelsOf routine).idxOf? name with
  | none => simpa using List.idxOf?_eq_none_iff.mp h
  | some i => simpa using List.isSome_idxOf?.mp (by rw [h, Option.isSome_some])

end Tables

namespace Scope

@[simp] theorem routine_top (routine : Routine) : (top routine).routine = routine := rfl

@[simp] theorem routine_opened (s : Scope) : s.opened.routine = s.routine := rfl

@[simp] theorem routine_dispatching (s : Scope) (selector : Nat) :
    (s.dispatching selector).routine = s.routine := rfl

end Scope

/-- The tables have everything that the given demands are for. -/
def Tables.ProvidesAll (t : Tables) (ds : List Demand) : Prop := ∀ d ∈ ds, t.Provides d

@[simp] theorem Tables.providesAll_append {t : Tables} {ds ds' : List Demand} :
    t.ProvidesAll (ds ++ ds') ↔ t.ProvidesAll ds ∧ t.ProvidesAll ds' :=
  List.forall_mem_append

/-- Code can be emitted in this setting for a program with these names: the operations are imported,
and the names that the program declares are those of the tables. -/
structure Setting.IsFor (w : Setting) (n : Names) : Prop where
  operators : ∀ op, ∃ i, w.tables.importIndex? (w.host.operators.handle op).source = some i
  registry : w.host.registry = n.registry
  slots : w.tables.slots = n.symbols.names
  subroutines : ∀ name, name ∈ w.tables.subroutines ↔ name ∈ n.subroutines

namespace Setting

variable {w : Setting} {n : Names}

/-! ## Expressions -/

theorem callImport_succeedsIff {source : ImportRef} {type : FuncType}
    (h : w.tables.Provides (.function source type)) :
    SucceedsIff (w.callImport source) True := by
  obtain ⟨i, hi⟩ := h
  exact SucceedsIff.map (.of_ok (Tables.imported_eq_ok_iff.mpr hi))

namespace IsFor

theorem callOperator (hw : w.IsFor n) (op : Operator) : SucceedsIff (w.callOperator op) True :=
  @callImport_succeedsIff _ _ ⟨[], []⟩ (hw.operators op)

theorem lowerNumber (hw : w.IsFor n) (x : Binary64) : SucceedsIff (w.lowerNumber x) True :=
  ((hw.callOperator .ofNumber).bind fun _ _ ↦ .pure _).congr (and_self_iff)

theorem slot (hw : w.IsFor n) (name : String) :
    SucceedsIff (w.tables.slot name) (name ∈ n.symbols.names) :=
  hw.slots ▸ w.tables.slot_succeedsIff name

theorem subroutine (hw : w.IsFor n) (name : String) :
    SucceedsIff (w.tables.subroutine name) (name ∈ n.subroutines) :=
  (w.tables.subroutine_succeedsIff name).congr (hw.subroutines name)

/-- The function behind a method that is called. -/
theorem callMethod (hw : w.IsFor n) {type method : String}
    (hp : w.tables.ProvidesAll (n.registry.callDemands type method)) {m : MethodDescriptor}
    (hm : w.host.method type method = .ok m) : SucceedsIff (w.callImport m.source) True := by
  rw [Host.method_eq_ok_iff, hw.registry] at hm
  exact callImport_succeedsIff (hp (.function m.source m.signature) (by
    rw [Registry.callDemands, hm]
    exact List.mem_singleton.mpr rfl))

theorem method (hw : w.IsFor n) {type method : String} {given : Nat} {needsValue : Bool}
    (ha : n.registry.AdmitsCall type method given needsValue) :
    SucceedsIff (w.host.method type method) True := by
  obtain ⟨m, hm, -⟩ := ha
  exact .of_ok (Host.method_eq_ok_iff.mpr (hw.registry ▸ hm))

mutual

theorem lowerExpr (hw : w.IsFor n) {e : Expr} (ha : n.registry.AdmitsExpr e)
    (hp : w.tables.ProvidesAll (n.registry.exprDemands e)) :
    SucceedsIff (w.lowerExpr e) (n.ResolvesExpr e) := by
  match e with
  | .number x => exact hw.lowerNumber x
  | .text text =>
    obtain ⟨extent, he⟩ := hp (.text text) (List.mem_singleton.mpr rfl)
    have hextent : w.tables.textExtent text = .ok extent := by rw [Tables.textExtent, he]
    exact ((SucceedsIff.of_ok hextent).bind fun _ _ ↦
      (hw.callOperator .ofText).bind fun _ _ ↦ .pure _).congr (by simp [Names.ResolvesExpr])
  | .variable name =>
    exact ((hw.slot name).bind fun _ _ ↦ .pure _).congr (and_iff_left trivial)
  | .index array indices =>
    exact ((hw.slot array).bind fun _ _ ↦ (lowerPath hw ha hp).bind fun _ _ ↦ .pure _).congr
      (by simp [Names.ResolvesExpr])
  | .property type name =>
    obtain ⟨p, hprop, hg⟩ := ha
    obtain ⟨source, hs⟩ := Option.isSome_iff_exists.mp hg
    have hgetter : w.host.getter type name = .ok source :=
      Host.getter_eq_ok_iff.mpr ⟨p, hw.registry ▸ hprop, hs⟩
    have hprovided : w.tables.Provides (.function source getterSignature) := hp _ (by
      simp [Registry.exprDemands, Registry.getterDemands, hprop, hs])
    rw [Setting.lowerExpr, hgetter, ok_bind]
    exact ((callImport_succeedsIff hprovided).bind fun _ _ ↦ .pure _).congr and_self_iff
  | .call type method args =>
    obtain ⟨hcall, hargs⟩ := Tables.providesAll_append.mp hp
    exact ((hw.method ha.1).bind fun m hm ↦ (lowerArgs hw ha.2 hargs).bind fun _ _ ↦
      (hw.callMethod hcall hm).bind fun _ _ ↦ .pure _).congr (by simp [Names.ResolvesExpr])
  | .binary op left right =>
    obtain ⟨hl, hr⟩ := Tables.providesAll_append.mp hp
    exact ((lowerExpr hw ha.1 hl).bind fun _ _ ↦ (lowerExpr hw ha.2 hr).bind fun _ _ ↦
      (hw.callOperator op.operator).bind fun _ _ ↦ .pure _).congr (by simp [Names.ResolvesExpr])
  | .negate operand =>
    exact ((lowerExpr hw (e := operand) ha hp).bind fun _ _ ↦
      (hw.callOperator .negate).bind fun _ _ ↦ .pure _).congr (by simp [Names.ResolvesExpr])

theorem lowerArgs (hw : w.IsFor n) {es : List Expr} (ha : n.registry.AdmitsExprs es)
    (hp : w.tables.ProvidesAll (n.registry.exprsDemands es)) :
    SucceedsIff (w.lowerArgs es) (n.ResolvesExprs es) := by
  match es with
  | [] => exact .pure []
  | e :: rest =>
    obtain ⟨he, hrest⟩ := Tables.providesAll_append.mp hp
    exact ((lowerExpr hw ha.1 he).bind fun _ _ ↦
      (lowerArgs hw ha.2 hrest).bind fun _ _ ↦ .pure _).congr (by simp [Names.ResolvesExprs])

theorem lowerPath (hw : w.IsFor n) {es : List Expr} (ha : n.registry.AdmitsExprs es)
    (hp : w.tables.ProvidesAll (n.registry.exprsDemands es)) :
    SucceedsIff (w.lowerPath es) (n.ResolvesExprs es) := by
  match es with
  | [] => exact .pure []
  | e :: rest =>
    obtain ⟨he, hrest⟩ := Tables.providesAll_append.mp hp
    exact ((lowerExpr hw ha.1 he).bind fun _ _ ↦ (hw.callOperator .getElement).bind fun _ _ ↦
      (lowerPath hw ha.2 hrest).bind fun _ _ ↦ .pure _).congr (by simp [Names.ResolvesExprs])

end

theorem lowerCondition (hw : w.IsFor n) {e : Expr} (ha : n.registry.AdmitsExpr e)
    (hp : w.tables.ProvidesAll (n.registry.exprDemands e)) :
    SucceedsIff (w.lowerCondition e) (n.ResolvesExpr e) :=
  ((hw.lowerExpr ha hp).bind fun _ _ ↦ (hw.callOperator .toBoolean).bind fun _ _ ↦
    .pure _).congr (by simp)

/-! ## Assignments and loops -/

theorem lowerStore (hw : w.IsFor n) {value : Expr} (hvalue : n.registry.AdmitsExpr value)
    (hpv : w.tables.ProvidesAll (n.registry.exprDemands value)) {indices : List Expr}
    (ha : n.registry.AdmitsExprs indices)
    (hp : w.tables.ProvidesAll (n.registry.exprsDemands indices)) (array : Nat) :
    Lowering.SucceedsIff (w.lowerStore array value indices)
      (indices ≠ [] ∧ n.ResolvesExprs indices ∧ n.ResolvesExpr value) := by
  induction indices generalizing array with
  | nil => exact (Lowering.SucceedsIff.throw _).congr (by simp)
  | cons first rest ih =>
    obtain ⟨hfirst, hrest⟩ := Tables.providesAll_append.mp hp
    have hindex := Lowering.SucceedsIff.lift (hw.lowerExpr ha.1 hfirst)
    cases rest with
    | nil =>
      exact (hindex.bind fun _ ↦ (Lowering.SucceedsIff.lift (hw.lowerExpr hvalue hpv)).bind
        fun _ ↦ (Lowering.SucceedsIff.lift (hw.callOperator .setElement)).bind fun _ ↦
          .pure _).congr (by simp [Names.ResolvesExprs])
    | cons second rest =>
      exact ((Lowering.SucceedsIff.addLocal .i32).bind fun _ ↦
        (Lowering.SucceedsIff.addLocal .i32).bind fun inner ↦ hindex.bind fun _ ↦
        (Lowering.SucceedsIff.lift (hw.callOperator .getElement)).bind fun _ ↦
        (ih ha.2 hrest inner).bind fun _ ↦
        (Lowering.SucceedsIff.lift (hw.callOperator .setElement)).bind fun _ ↦ .pure _).congr
        (by simp [Names.ResolvesExprs, and_assoc])

theorem lowerAssign (hw : w.IsFor n) {value : Expr} {target : Target}
    (ha : n.registry.AdmitsAssign value target)
    (hp : w.tables.ProvidesAll (n.registry.assignDemands value target)) :
    Lowering.SucceedsIff (w.lowerAssign value target) (n.ResolvesAssign value target) := by
  match target with
  | .variable name =>
    exact ((Lowering.SucceedsIff.lift (hw.lowerExpr ha hp)).bind fun _ ↦
      (Lowering.SucceedsIff.lift (hw.slot name)).bind fun _ ↦ .pure _).congr
      (by simp [Names.ResolvesAssign, and_comm])
  | .index array indices =>
    obtain ⟨hi, hv⟩ := Tables.providesAll_append.mp hp
    exact ((Lowering.SucceedsIff.lift (hw.slot array)).bind fun _ ↦
      (Lowering.SucceedsIff.addLocal .i32).bind fun whole ↦
      (hw.lowerStore ha.2 hv ha.1 hi whole).bind fun _ ↦ .pure _).congr
      (by simp [Names.ResolvesAssign])
  | .property type name =>
    obtain ⟨⟨p, hprop, hs⟩, hvalue⟩ := ha
    obtain ⟨source, hs⟩ := Option.isSome_iff_exists.mp hs
    obtain ⟨hset, hv⟩ := Tables.providesAll_append.mp hp
    have hsetter : w.host.setter type name = .ok source :=
      Host.setter_eq_ok_iff.mpr ⟨p, hw.registry ▸ hprop, hs⟩
    have hprovided : w.tables.Provides (.function source setterSignature) := hset _ (by
      simp [Registry.setterDemands, hprop, hs])
    exact ((Lowering.SucceedsIff.lift_bind (.of_ok hsetter)) fun source' hs' ↦ by
      obtain rfl : source = source' := Except.ok.inj (hsetter.symm.trans hs')
      exact (Lowering.SucceedsIff.lift (hw.lowerExpr hvalue hv)).bind fun _ ↦
        (Lowering.SucceedsIff.lift (callImport_succeedsIff hprovided)).bind fun _ ↦ .pure _).congr
      (by simp [Names.ResolvesAssign])
  | .event type name =>
    obtain ⟨e, he⟩ := ha
    have hevent : w.host.event type name = .ok e := Host.event_eq_ok_iff.mpr (hw.registry ▸ he)
    have hprovided : w.tables.Provides (.function e.subscribe setterSignature) := hp _ (by
      simp [Registry.assignDemands, Registry.eventDemands, he])
    cases value with
    | «variable» handler =>
      exact ((Lowering.SucceedsIff.lift_bind (.of_ok hevent)) fun e' he' ↦ by
        obtain rfl : e = e' := Except.ok.inj (hevent.symm.trans he')
        exact (Lowering.SucceedsIff.lift (hw.subroutine handler)).bind fun _ ↦
          (Lowering.SucceedsIff.lift (callImport_succeedsIff hprovided)).bind fun _ ↦
            .pure _).congr (by simp [Names.ResolvesAssign])
    | _ => exact (Lowering.SucceedsIff.throw _).congr (by simp [Names.ResolvesAssign])

theorem compareEnd (hw : w.IsFor n) (op : Operator) (slot stop : Nat) :
    SucceedsIff (w.compareEnd op slot stop) True :=
  ((hw.callOperator op).bind fun _ _ ↦ .pure _).congr and_self_iff

theorem lowerDescending (hw : w.IsFor n) (step : Nat) :
    Lowering.SucceedsIff (w.lowerDescending step) True :=
  ((Lowering.SucceedsIff.addLocal .i32).bind fun _ ↦
    (Lowering.SucceedsIff.lift (hw.lowerNumber .zero)).bind fun _ ↦
    (Lowering.SucceedsIff.lift (hw.callOperator .lessThan)).bind fun _ ↦
    (Lowering.SucceedsIff.lift (hw.callOperator .toBoolean)).bind fun _ ↦ .pure _).congr (by simp)

theorem lowerBounds (hw : w.IsFor n) {start last : Expr} {step : Option Expr}
    (hstart : n.registry.AdmitsExpr start) (hlast : n.registry.AdmitsExpr last)
    (hstep : n.registry.AdmitsExprs step.toList)
    (hps : w.tables.ProvidesAll (n.registry.exprDemands start))
    (hpl : w.tables.ProvidesAll (n.registry.exprDemands last))
    (hpst : w.tables.ProvidesAll (n.registry.exprsDemands step.toList)) (slot stop by_ : Nat) :
    Lowering.SucceedsIff (w.lowerBounds slot stop by_ start last step)
      (n.ResolvesExpr start ∧ n.ResolvesExpr last ∧ n.ResolvesExprs step.toList) := by
  have h₁ := Lowering.SucceedsIff.lift (hw.lowerExpr hstart hps)
  have h₂ := Lowering.SucceedsIff.lift (hw.lowerExpr hlast hpl)
  cases step with
  | none =>
    exact (h₁.bind fun _ ↦ h₂.bind fun _ ↦
      (Lowering.SucceedsIff.lift (hw.lowerNumber one)).bind fun _ ↦
      (Lowering.SucceedsIff.lift (hw.compareEnd .lessThanOrEqual slot stop)).bind fun _ ↦
      (Lowering.SucceedsIff.lift (hw.callOperator .toBoolean)).bind fun _ ↦ .pure _).congr
      (by simp [Names.ResolvesExprs])
  | some step =>
    have hp : w.tables.ProvidesAll (n.registry.exprDemands step) :=
      (Tables.providesAll_append.mp hpst).1
    exact (h₁.bind fun _ ↦ h₂.bind fun _ ↦
      (Lowering.SucceedsIff.lift (hw.lowerExpr hstep.1 hp)).bind fun _ ↦
      (hw.lowerDescending by_).bind fun _ ↦
      (Lowering.SucceedsIff.lift (hw.compareEnd .greaterThanOrEqual slot stop)).bind fun _ ↦
      (Lowering.SucceedsIff.lift (hw.compareEnd .lessThanOrEqual slot stop)).bind fun _ ↦
      (Lowering.SucceedsIff.lift (hw.callOperator .toBoolean)).bind fun _ ↦ .pure _).congr
      (by simp [Names.ResolvesExprs])

/-! ## Statements -/

/-- A `goto` finds the loop that it goes back to, if the routine has labels. -/
def HasLoop (w : Setting) (s : Scope) : Prop :=
  w.tables.labelsOf s.routine ≠ [] → s.dispatch.isSome

theorem jump_of_mem {s : Scope} (hs : HasLoop w s) {name : String}
    (hname : name ∈ w.tables.labelsOf s.routine) : ∃ target, s.jump = .ok target := by
  obtain ⟨d, hd⟩ := Option.isSome_iff_exists.mp (hs (List.ne_nil_of_mem hname))
  exact ⟨(d.selector, s.depth - d.level), by rw [Scope.jump, hd]⟩

theorem lowerGoto {s : Scope} (hs : HasLoop w s) (name : String) (span : Span) :
    Lowering.SucceedsIff (w.lowerStmt s (.goto name span))
      (name ∈ w.tables.labelsOf s.routine) := by
  have hlabel := w.tables.label_succeedsIff s.routine name
  refine (Lowering.SucceedsIff.lift_bind hlabel fun segment hsegment ↦ ?_).congr
    (and_iff_left trivial)
  obtain ⟨target, ht⟩ := jump_of_mem hs (hlabel.mp ⟨segment, hsegment⟩)
  exact ((Lowering.SucceedsIff.lift (.of_ok ht)).bind fun _ ↦ .pure _).congr and_self_iff

mutual

theorem lowerStmt (hw : w.IsFor n) {kind : ScopeKind} {st : Stmt}
    (ha : n.registry.AdmitsStmt kind st)
    (hp : w.tables.ProvidesAll (n.registry.stmtDemands st)) {s : Scope} (hs : HasLoop w s) :
    Lowering.SucceedsIff (w.lowerStmt s st)
      (n.ResolvesStmt (w.tables.labelsOf s.routine) st) := by
  match st with
  | .assign target value _ => exact hw.lowerAssign ha hp
  | .call type method args _ =>
    obtain ⟨hcall, hargs⟩ := Tables.providesAll_append.mp hp
    exact (Lowering.SucceedsIff.lift_bind (hw.method ha.1) fun m hm ↦
      (Lowering.SucceedsIff.lift (hw.lowerArgs ha.2 hargs)).bind fun _ ↦
      (Lowering.SucceedsIff.lift (hw.callMethod hcall hm)).bind fun _ ↦ .pure _).congr
      (by simp [Names.ResolvesStmt])
  | .cond condition body arms otherwise _ =>
    simp only [Registry.stmtDemands, Tables.providesAll_append] at hp
    obtain ⟨⟨⟨hpc, hpb⟩, hpa⟩, hpo⟩ := hp
    have hotherwise : ∀ s' : Scope, s'.routine = s.routine → s'.dispatch = s.dispatch →
        Lowering.SucceedsIff
          (if otherwise.isEmpty then pure none else some <$> w.lowerStmts s' otherwise)
          (n.ResolvesStmts (w.tables.labelsOf s.routine) otherwise) := by
      intro s' hr hd
      cases otherwise with
      | nil => exact .pure none
      | cons st rest =>
        have := lowerStmts hw ha.2.2.2 hpo (s := s') (by rwa [HasLoop, hr, hd])
        rw [hr] at this
        exact this.map
    exact ((Lowering.SucceedsIff.lift (hw.lowerCondition ha.1 hpc)).bind fun _ ↦
      (lowerStmts hw ha.2.1 hpb (s := s.opened) hs).bind fun _ ↦
      (lowerArms hw ha.2.2.1 hpa (s := s.opened) hs hotherwise).bind fun _ ↦ .pure _).congr
      (by simp [Names.ResolvesStmt])
  | .while condition body _ =>
    obtain ⟨hpc, hpb⟩ := Tables.providesAll_append.mp hp
    exact ((Lowering.SucceedsIff.lift (hw.lowerCondition ha.1 hpc)).bind fun _ ↦
      (lowerStmts hw ha.2 hpb (s := s.opened.opened) hs).bind fun _ ↦ .pure _).congr
      (by simp [Names.ResolvesStmt])
  | .for name start last step body _ =>
    simp only [Registry.stmtDemands, Tables.providesAll_append] at hp
    obtain ⟨⟨⟨hps, hpl⟩, hpst⟩, hpb⟩ := hp
    exact ((Lowering.SucceedsIff.lift (hw.slot name)).bind fun slot ↦
      (Lowering.SucceedsIff.addLocal .i32).bind fun stop ↦
      (Lowering.SucceedsIff.addLocal .i32).bind fun by_ ↦
      (hw.lowerBounds ha.1 ha.2.1 ha.2.2.1 hps hpl hpst slot stop by_).bind fun _ ↦
      (lowerStmts hw ha.2.2.2 hpb (s := s.opened.opened) hs).bind fun _ ↦
      (Lowering.SucceedsIff.lift (hw.callOperator .add)).bind fun _ ↦ .pure _).congr
      (by simp [Names.ResolvesStmt, and_assoc])
  | .goto name span => exact lowerGoto hs name span
  | .callSub name _ =>
    exact ((Lowering.SucceedsIff.lift (hw.subroutine name)).bind fun _ ↦ .pure _).congr
      (and_iff_left trivial)
  | .label .. => exact .pure []
  | .sub .. => exact .pure []
  | .empty .. => exact .pure []

theorem lowerStmts (hw : w.IsFor n) {kind : ScopeKind} {body : List Stmt}
    (ha : n.registry.AdmitsStmts kind body)
    (hp : w.tables.ProvidesAll (n.registry.stmtsDemands body)) {s : Scope} (hs : HasLoop w s) :
    Lowering.SucceedsIff (w.lowerStmts s body)
      (n.ResolvesStmts (w.tables.labelsOf s.routine) body) := by
  match body with
  | [] => exact .pure []
  | st :: rest =>
    obtain ⟨hfirst, hrest⟩ := Tables.providesAll_append.mp hp
    exact ((lowerStmt hw ha.1 hfirst hs).bind fun _ ↦
      (lowerStmts hw ha.2 hrest hs).bind fun _ ↦ .pure _).congr (by simp [Names.ResolvesStmts])

/-- Behind the arms comes what `otherwise` gives, wherever it stands. -/
theorem lowerArms (hw : w.IsFor n) {arms : List Arm} (ha : n.registry.AdmitsArms arms)
    (hp : w.tables.ProvidesAll (n.registry.armsDemands arms)) {s : Scope} (hs : HasLoop w s)
    {otherwise : Scope → Lowering (Option (List Instr))} {Q : Prop}
    (ho : ∀ s' : Scope, s'.routine = s.routine → s'.dispatch = s.dispatch →
      Lowering.SucceedsIff (otherwise s') Q) :
    Lowering.SucceedsIff (w.lowerArms s arms otherwise)
      (n.ResolvesArms (w.tables.labelsOf s.routine) arms ∧ Q) := by
  match arms with
  | [] => exact (ho s rfl rfl).congr (by simp [Names.ResolvesArms])
  | .mk condition body :: rest =>
    simp only [Registry.armsDemands, Tables.providesAll_append] at hp
    obtain ⟨⟨hpc, hpb⟩, hpr⟩ := hp
    exact ((Lowering.SucceedsIff.lift (hw.lowerCondition ha.1 hpc)).bind fun _ ↦
      (lowerStmts hw ha.2.1 hpb (s := s.opened) hs).bind fun _ ↦
      (lowerArms hw ha.2.2 hpr (s := s.opened) hs ho).bind fun _ ↦ .pure _).congr
      (by simp [Names.ResolvesArms, and_assoc])

end

end IsFor

end Setting

/-! ## Routines -/

namespace Names

variable {n : Names} {labels : List String}

theorem resolvesStmts_iff {body : List Stmt} :
    n.ResolvesStmts labels body ↔ ∀ s ∈ body, n.ResolvesStmt labels s := by
  induction body with
  | nil => simp [ResolvesStmts]
  | cons s rest ih => rw [ResolvesStmts, ih, List.forall_mem_cons]

end Names

namespace Registry

variable {r : Registry}

theorem admitsStmts_iff {kind : ScopeKind} {body : List Stmt} :
    r.AdmitsStmts kind body ↔ ∀ s ∈ body, r.AdmitsStmt kind s := by
  induction body with
  | nil => simp [AdmitsStmts]
  | cons s rest ih => rw [AdmitsStmts, ih, List.forall_mem_cons]

theorem stmtsDemands_eq_flatMap (body : List Stmt) :
    r.stmtsDemands body = body.flatMap r.stmtDemands := by
  induction body with
  | nil => rfl
  | cons s rest ih => rw [stmtsDemands, ih, List.flatMap_cons]

theorem AdmitsStmts.of_subset {kind : ScopeKind} {body part : List Stmt}
    (ha : r.AdmitsStmts kind body) (hpart : part ⊆ body) : r.AdmitsStmts kind part :=
  admitsStmts_iff.mpr fun s hs ↦ admitsStmts_iff.mp ha s (hpart hs)

theorem stmtsDemands_subset {body part : List Stmt} (hpart : part ⊆ body) :
    r.stmtsDemands part ⊆ r.stmtsDemands body := by
  intro d hd
  rw [stmtsDemands_eq_flatMap, List.mem_flatMap] at hd ⊢
  obtain ⟨s, hs, hd⟩ := hd
  exact ⟨s, hpart hs, hd⟩

end Registry

theorem segments_ne_nil (body : List Stmt) : segments body ≠ [] := by
  fun_cases segments body <;> simp

theorem segments_cons_of_none {s : Stmt} (hs : s.labelName? = none) {rest first : List Stmt}
    {others : List (List Stmt)} (h : segments rest = first :: others) :
    segments (s :: rest) = (s :: first) :: others := by
  cases s with
  | label name span => nomatch hs
  | _ => simp only [segments, h]

/-- There is one segment more than there are labels. -/
theorem length_segments (body : List Stmt) :
    (segments body).length = (labelNames body).length + 1 := by
  induction body with
  | nil => rfl
  | cons s rest ih =>
    cases hs : s.labelName? with
    | none =>
      obtain ⟨first, others, h⟩ := List.exists_cons_of_ne_nil (segments_ne_nil rest)
      rw [segments_cons_of_none hs h, labelNames_cons_of_none hs, ← ih, h, List.length_cons,
        List.length_cons]
    | some name =>
      obtain ⟨span, rfl⟩ := Stmt.eq_label hs
      rw [segments, List.length_cons, ih, labelNames_label, List.length_cons]

/-- The segments hold the statements of a routine that are no labels. -/
theorem mem_flatten_segments {s : Stmt} {body : List Stmt} :
    s ∈ (segments body).flatten ↔ s ∈ body ∧ s.labelName? = none := by
  induction body with
  | nil => simp [segments]
  | cons s' rest ih =>
    cases hs : s'.labelName? with
    | none =>
      obtain ⟨first, others, h⟩ := List.exists_cons_of_ne_nil (segments_ne_nil rest)
      rw [h] at ih
      rw [segments_cons_of_none hs h, List.flatten_cons, List.cons_append, List.mem_cons,
        ← List.flatten_cons, ih, List.mem_cons]
      constructor
      · rintro (rfl | ⟨hmem, hnone⟩)
        · exact ⟨.inl rfl, hs⟩
        · exact ⟨.inr hmem, hnone⟩
      · rintro ⟨rfl | hmem, hnone⟩
        · exact .inl rfl
        · exact .inr ⟨hmem, hnone⟩
    | some name =>
      obtain ⟨span, rfl⟩ := Stmt.eq_label hs
      rw [segments, List.flatten_cons, List.nil_append, ih, List.mem_cons]
      constructor
      · rintro ⟨hmem, hnone⟩
        exact ⟨.inr hmem, hnone⟩
      · rintro ⟨rfl | hmem, hnone⟩
        · nomatch hnone
        · exact ⟨hmem, hnone⟩

theorem subset_of_mem_segments {body part : List Stmt} (hpart : part ∈ segments body) :
    part ⊆ body := fun _ hs ↦
  (mem_flatten_segments.mp (List.mem_flatten.mpr ⟨part, hpart, hs⟩)).1

theorem Names.resolvesStmts_segments {n : Names} {labels : List String} {body : List Stmt} :
    (∀ part ∈ segments body, n.ResolvesStmts labels part) ↔ n.ResolvesStmts labels body := by
  simp only [resolvesStmts_iff]
  constructor
  · intro h s hs
    cases hname : s.labelName? with
    | none =>
      obtain ⟨part, hpart, hmem⟩ := List.mem_flatten.mp (mem_flatten_segments.mpr ⟨hs, hname⟩)
      exact h part hpart s hmem
    | some name =>
      obtain ⟨span, rfl⟩ := Stmt.eq_label hname
      trivial
  · intro h part hpart s hs
    exact h s (mem_flatten_segments.mp (List.mem_flatten.mpr ⟨part, hpart, hs⟩)).1

namespace Setting.IsFor

variable {w : Setting} {n : Names}

theorem lowerSegments (hw : w.IsFor n) {kind : ScopeKind} {parts : List (List Stmt)}
    (ha : ∀ part ∈ parts, n.registry.AdmitsStmts kind part)
    (hp : ∀ part ∈ parts, w.tables.ProvidesAll (n.registry.stmtsDemands part)) {s : Scope}
    (hs : HasLoop w s) :
    Lowering.SucceedsIff (w.lowerSegments s parts)
      (∀ part ∈ parts, n.ResolvesStmts (w.tables.labelsOf s.routine) part) := by
  induction parts with
  | nil => exact (Lowering.SucceedsIff.pure []).congr (by simp)
  | cons part rest ih =>
    rw [List.forall_mem_cons] at ha hp
    exact ((hw.lowerStmts ha.1 hp.1 (s := { s with depth := s.depth + rest.length }) hs).bind
      fun _ ↦ (ih ha.2 hp.2).bind fun _ ↦ .pure _).congr (by simp)

theorem lowerRoutine (hw : w.IsFor n) {kind : ScopeKind} {body : List Stmt} {routine : Routine}
    (ha : n.registry.AdmitsStmts kind body)
    (hp : w.tables.ProvidesAll (n.registry.stmtsDemands body))
    (hlabels : w.tables.labelsOf routine = labelNames body) :
    Lowering.SucceedsIff (w.lowerRoutine routine body)
      (n.ResolvesStmts (labelNames body) body) := by
  rw [Setting.lowerRoutine]
  split
  · rename_i part hparts
    have hnil : labelNames body = [] := by
      have hlen := length_segments body
      rw [hparts, List.length_singleton] at hlen
      exact List.length_eq_zero_iff.mp (by omega)
    have := hw.lowerStmts ha hp (s := .top routine) fun hne ↦ absurd (hlabels.trans hnil) hne
    rwa [Scope.routine_top, hlabels] at this
  · have hcode (selector : Nat) : Lowering.SucceedsIff
        (w.lowerSegments ((Scope.top routine).opened.dispatching selector) (segments body)) _ :=
      hw.lowerSegments (fun part hpart ↦ ha.of_subset (subset_of_mem_segments hpart))
        (fun part hpart d hd ↦
          hp d (Registry.stmtsDemands_subset (subset_of_mem_segments hpart) hd)) fun _ ↦ rfl
    simp only [Scope.routine_dispatching, Scope.routine_opened, Scope.routine_top, hlabels] at hcode
    exact ((Lowering.SucceedsIff.addLocal .i32).bind fun selector ↦
      (hcode selector).bind fun _ ↦ .pure _).congr (by simp [Names.resolvesStmts_segments])

/-- The function of a routine can be emitted exactly if its statements are resolved. -/
theorem routineCode (hw : w.IsFor n) {kind : ScopeKind} {body : List Stmt} {routine : Routine}
    (ha : n.registry.AdmitsStmts kind body)
    (hp : w.tables.ProvidesAll (n.registry.stmtsDemands body))
    (hlabels : w.tables.labelsOf routine = labelNames body) :
    SucceedsIff (w.routineCode routine body) (n.ResolvesStmts (labelNames body) body) :=
  ((hw.lowerRoutine ha hp hlabels []).bind fun _ _ ↦ .pure _).congr (and_iff_left trivial)

end Setting.IsFor

end ScriptWasm
