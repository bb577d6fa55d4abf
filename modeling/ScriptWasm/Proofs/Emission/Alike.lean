import ScriptWasm.Proofs.Emission.Acceptance
import ScriptWasm.Proofs.Program.Alike

/-!
# The module does not depend on spellings and places

Programs that are alike have the same tables and the same code, or neither has any.

The emitter may fail, and its errors quote the program. Two of its steps *agree* if they succeed
together and with the same result; whatever is built from steps that agree agrees.
-/

namespace ScriptWasm

open Wasm

/-! ## Steps that agree -/

section Agree

variable {ε α β : Type}

/-- Two steps succeed together and with the same result, or fail both. -/
def Agree (x y : Except ε α) : Prop := ∀ a, x = .ok a ↔ y = .ok a

namespace Agree

variable {x y : Except ε α}

theorem refl (x : Except ε α) : Agree x x := fun _ ↦ Iff.rfl

theorem errors (e e' : ε) : Agree (.error e : Except ε α) (.error e') := fun _ ↦
  iff_of_false nofun nofun

theorem bind {f g : α → Except ε β} (hxy : Agree x y) (hfg : ∀ a, Agree (f a) (g a)) :
    Agree (x >>= f) (y >>= g) := by
  intro b
  simp only [bind_eq_ok_iff, hxy _, hfg _ b]

/-- Steps for elements that agree one by one. -/
theorem mapM {γ γ' : Type} {f : γ → Except ε β} {g : γ' → Except ε β} {l : List γ} {l' : List γ'}
    (h : List.Forall₂ (fun a b ↦ Agree (f a) (g b)) l l') : Agree (l.mapM f) (l'.mapM g) := by
  induction h with
  | nil => exact refl _
  | cons hab _ ih =>
    rw [List.mapM_cons, List.mapM_cons]
    exact hab.bind fun _ ↦ ih.bind fun _ ↦ refl _

end Agree

end Agree

namespace Host

variable {type type' name name' : String} (h : Host)

theorem agree_method (htype : SameKey type type') (hname : SameKey name name') :
    Agree (h.method type name) (h.method type' name') := by
  rw [method, method, h.registry.method?_congr htype hname]
  cases h.registry.method? type' name' with
  | none => exact .errors _ _
  | some m => exact .refl _

theorem agree_property (htype : SameKey type type') (hname : SameKey name name') :
    Agree (h.property type name) (h.property type' name') := by
  rw [property, property, h.registry.property?_congr htype hname]
  cases h.registry.property? type' name' with
  | none => exact .errors _ _
  | some p => exact .refl _

theorem agree_event (htype : SameKey type type') (hname : SameKey name name') :
    Agree (h.event type name) (h.event type' name') := by
  rw [event, event, h.registry.event?_congr htype hname]
  cases h.registry.event? type' name' with
  | none => exact .errors _ _
  | some e => exact .refl _

theorem agree_getter (htype : SameKey type type') (hname : SameKey name name') :
    Agree (h.getter type name) (h.getter type' name') := by
  refine (h.agree_property htype hname).bind fun p ↦ ?_
  cases p.getter? with
  | none => exact .errors _ _
  | some source => exact .refl _

theorem agree_setter (htype : SameKey type type') (hname : SameKey name name') :
    Agree (h.setter type name) (h.setter type' name') := by
  refine (h.agree_property htype hname).bind fun p ↦ ?_
  cases p.setter? with
  | none => exact .errors _ _
  | some source => exact .refl _

end Host

/-! ## The first walk -/

namespace Tables

variable (h : Host)

theorem agree_prepareCall {type type' name name' : String} (htype : SameKey type type')
    (hname : SameKey name name') (t : Tables) (given : Nat) :
    Agree (t.prepareCall h type name given) (t.prepareCall h type' name' given) := by
  refine (h.agree_method htype hname).bind fun m ↦ ?_
  split
  · exact .refl _
  · exact .errors _ _

theorem agree_checkReturns {type type' name name' : String} (htype : SameKey type type')
    (hname : SameKey name name') :
    Agree (checkReturns h type name) (checkReturns h type' name') := by
  refine (h.agree_method htype hname).bind fun m ↦ ?_
  split
  · exact .refl _
  · exact .errors _ _

mutual

theorem agree_prepareExpr {e e' : Expr} (he : e.Alike e') (t : Tables) :
    Agree (t.prepareExpr h e) (t.prepareExpr h e') := by
  match e, he with
  | .number _, .number _ => exact .refl _
  | .text _, .text _ => exact .refl _
  | .variable _, .variable _ => exact .refl _
  | .index _ _, .index _ hindices => exact agree_prepareExprs hindices t
  | .property _ _, .property htype hname =>
    rw [prepareExpr, prepareExpr]
    exact (h.agree_getter htype hname).bind fun _ ↦ .refl _
  | .call _ _ args, .call htype hname hargs =>
    rw [prepareExpr, prepareExpr, hargs.length_eq]
    exact (agree_checkReturns h htype hname).bind fun _ ↦
      (agree_prepareCall h htype hname t _).bind fun t ↦ agree_prepareExprs hargs t
  | .binary _ _ _, .binary _ hleft hright =>
    rw [prepareExpr, prepareExpr]
    exact (agree_prepareExpr hleft t).bind fun t ↦ agree_prepareExpr hright t
  | .negate _, .negate hoperand =>
    rw [prepareExpr, prepareExpr]
    exact agree_prepareExpr hoperand t

theorem agree_prepareExprs {es es' : List Expr} (hes : ExprsAlike es es') (t : Tables) :
    Agree (t.prepareExprs h es) (t.prepareExprs h es') := by
  match es, hes with
  | [], .nil => exact .refl _
  | e :: es, .cons he hes =>
    rw [prepareExprs, prepareExprs]
    exact (agree_prepareExpr he t).bind fun t ↦ agree_prepareExprs hes t

end

theorem agree_prepareAssign {value value' : Expr} {target target' : Target}
    (htarget : target.Alike target') (hvalue : value.Alike value') (t : Tables) :
    Agree (t.prepareAssign h value target) (t.prepareAssign h value' target') := by
  match target, htarget with
  | .variable _, .variable _ => exact agree_prepareExpr h hvalue t
  | .index _ _, .index _ hindices =>
    exact (agree_prepareExprs h hindices t).bind fun t ↦ agree_prepareExpr h hvalue t
  | .property _ _, .property htype hname =>
    exact (h.agree_setter htype hname).bind fun _ ↦ agree_prepareExpr h hvalue _
  | .event _ _, .event htype hname => exact (h.agree_event htype hname).bind fun _ ↦ .refl _

mutual

theorem agree_prepareStmt {s s' : Stmt} (hs : s.Alike s') (t : Tables) (p : Place) :
    Agree (t.prepareStmt h p s) (t.prepareStmt h p s') := by
  match s, hs with
  | .assign _ _ _, .assign htarget hvalue =>
    rw [prepareStmt, prepareStmt]
    exact agree_prepareAssign h htarget hvalue t
  | .call _ _ _ _, .call htype hname hargs =>
    rw [prepareStmt, prepareStmt, hargs.length_eq]
    exact (agree_prepareCall h htype hname t _).bind fun t ↦ agree_prepareExprs h hargs t
  | .cond _ _ _ _ _, .cond hcondition hbody harms hotherwise =>
    rw [prepareStmt, prepareStmt]
    exact (agree_prepareExpr h hcondition t).bind fun t ↦
      (agree_prepareStmts hbody t p.inner).bind fun t ↦
        (agree_prepareArms harms t p.inner).bind fun t ↦ agree_prepareStmts hotherwise t p.inner
  | .while _ _ _, .while hcondition hbody =>
    rw [prepareStmt, prepareStmt]
    exact (agree_prepareExpr h hcondition t).bind fun t ↦ agree_prepareStmts hbody t p.inner
  | .for _ _ _ _ _ _, .for _ hstart hstop hstep hbody =>
    rw [prepareStmt, prepareStmt]
    exact (agree_prepareExpr h hstart t).bind fun t ↦
      (agree_prepareExpr h hstop t).bind fun t ↦
        (agree_prepareExprs h hstep t).bind fun t ↦ agree_prepareStmts hbody t p.inner
  | .goto _ _, .goto _ => exact .refl _
  | .label _ _, .label _ => exact .refl _
  | .sub _ _ _, .sub _ hbody =>
    rw [prepareStmt, prepareStmt]
    split
    · exact .errors _ _
    · exact (Agree.refl _).bind fun r ↦ agree_prepareStmts hbody r.2 (.top (.subroutine r.1))
  | .callSub _ _, .callSub _ => exact .refl _
  | .empty _, .empty => exact .refl _

theorem agree_prepareStmts {body body' : List Stmt} (hbody : StmtsAlike body body') (t : Tables)
    (p : Place) : Agree (t.prepareStmts h p body) (t.prepareStmts h p body') := by
  match body, hbody with
  | [], .nil => exact .refl _
  | s :: body, .cons hs hbody =>
    rw [prepareStmts, prepareStmts]
    exact (agree_prepareStmt hs t p).bind fun t ↦ agree_prepareStmts hbody t p

theorem agree_prepareArms {arms arms' : List Arm} (harms : ArmsAlike arms arms') (t : Tables)
    (p : Place) : Agree (t.prepareArms h p arms) (t.prepareArms h p arms') := by
  match arms, harms with
  | [], .nil => exact .refl _
  | .mk _ body :: arms, .cons hcondition hbody harms =>
    rw [prepareArms, prepareArms]
    exact (agree_prepareExpr h hcondition t).bind fun t ↦
      (agree_prepareStmts hbody t p).bind fun t ↦ agree_prepareArms harms t p

end

/-- Programs that are alike have the same tables. -/
theorem agree_ofProgram {p q : Program} (hpq : p.Alike q) :
    Agree (ofProgram h p) (ofProgram h q) := by
  rw [ofProgram, ofProgram, hpq.symbols]
  exact (Agree.refl _).bind fun t ↦ agree_prepareStmts h hpq.body t (.top .entry)

end Tables

/-! ## The second walk -/

/-- Two steps that may add locals agree, whatever the locals are. -/
def Lowering.Agree {α : Type} (x y : Lowering α) : Prop := ∀ ls, ScriptWasm.Agree (x ls) (y ls)

namespace Lowering.Agree

variable {α β : Type} {x y : Lowering α}

theorem refl (x : Lowering α) : Agree x x := fun _ ↦ .refl _

theorem bind {f g : α → Lowering β} (hxy : Agree x y) (hfg : ∀ a, Agree (f a) (g a)) :
    Agree (x >>= f) (y >>= g) := fun ls ↦ (hxy ls).bind fun r ↦ hfg r.1 r.2

theorem lift {x y : Except EmitError α} (hxy : ScriptWasm.Agree x y) :
    Agree (liftM x) (liftM y) := fun _ ↦ hxy.bind fun _ ↦ .refl _

/-- Steps that add no locals come first. -/
theorem lift_bind {x y : Except EmitError α} {f g : α → Lowering β} (hxy : ScriptWasm.Agree x y)
    (hfg : ∀ a, Agree (f a) (g a)) :
    Agree ((liftM x : Lowering α) >>= f) ((liftM y : Lowering α) >>= g) := (lift hxy).bind hfg

theorem map (f : α → β) (hxy : Agree x y) : Agree (f <$> x) (f <$> y) := by
  rw [← bind_pure_comp, ← bind_pure_comp]
  exact hxy.bind fun _ ↦ refl _

end Lowering.Agree

namespace Setting

variable (w : Setting)

mutual

theorem agree_lowerExpr {e e' : Expr} (he : e.Alike e') :
    Agree (w.lowerExpr e) (w.lowerExpr e') := by
  match e, he with
  | .number _, .number _ => exact .refl _
  | .text _, .text _ => exact .refl _
  | .variable _, .variable _ => exact .refl _
  | .index _ _, .index _ hindices =>
    rw [lowerExpr, lowerExpr]
    exact (Agree.refl _).bind fun _ ↦ (agree_lowerPath hindices).bind fun _ ↦ .refl _
  | .property _ _, .property htype hname =>
    rw [lowerExpr, lowerExpr]
    exact (w.host.agree_getter htype hname).bind fun _ ↦ .refl _
  | .call _ _ _, .call htype hname hargs =>
    rw [lowerExpr, lowerExpr]
    exact (w.host.agree_method htype hname).bind fun _ ↦
      (agree_lowerArgs hargs).bind fun _ ↦ .refl _
  | .binary _ _ _, .binary _ hleft hright =>
    rw [lowerExpr, lowerExpr]
    exact (agree_lowerExpr hleft).bind fun _ ↦ (agree_lowerExpr hright).bind fun _ ↦ .refl _
  | .negate _, .negate hoperand =>
    rw [lowerExpr, lowerExpr]
    exact (agree_lowerExpr hoperand).bind fun _ ↦ .refl _

theorem agree_lowerArgs {es es' : List Expr} (hes : ExprsAlike es es') :
    Agree (w.lowerArgs es) (w.lowerArgs es') := by
  match es, hes with
  | [], .nil => exact .refl _
  | e :: es, .cons he hes =>
    rw [lowerArgs, lowerArgs]
    exact (agree_lowerExpr he).bind fun _ ↦ (agree_lowerArgs hes).bind fun _ ↦ .refl _

theorem agree_lowerPath {es es' : List Expr} (hes : ExprsAlike es es') :
    Agree (w.lowerPath es) (w.lowerPath es') := by
  match es, hes with
  | [], .nil => exact .refl _
  | e :: es, .cons he hes =>
    rw [lowerPath, lowerPath]
    exact (agree_lowerExpr he).bind fun _ ↦ (Agree.refl _).bind fun _ ↦
      (agree_lowerPath hes).bind fun _ ↦ .refl _

end

theorem agree_lowerCondition {e e' : Expr} (he : e.Alike e') :
    Agree (w.lowerCondition e) (w.lowerCondition e') :=
  (w.agree_lowerExpr he).bind fun _ ↦ .refl _

theorem agree_lowerStore {value value' : Expr} (hvalue : value.Alike value')
    {indices indices' : List Expr} (hindices : ExprsAlike indices indices') (array : Nat) :
    Lowering.Agree (w.lowerStore array value indices) (w.lowerStore array value' indices') := by
  match indices, hindices with
  | [], .nil => exact .refl _
  | [_], .cons hlast .nil =>
    rw [lowerStore, lowerStore]
    exact .lift_bind (w.agree_lowerExpr hlast) fun _ ↦
      .lift_bind (w.agree_lowerExpr hvalue) fun _ ↦ .refl _
  | _ :: _ :: _, .cons hfirst (.cons hsecond hrest) =>
    rw [lowerStore, lowerStore]
    · refine (Lowering.Agree.refl _).bind fun _ ↦ (Lowering.Agree.refl _).bind fun inner ↦ ?_
      exact .lift_bind (w.agree_lowerExpr hfirst) fun _ ↦ (Lowering.Agree.refl _).bind fun _ ↦
        (agree_lowerStore hvalue (.cons hsecond hrest) inner).bind fun _ ↦ .refl _
    · exact nofun
    · exact nofun

theorem agree_lowerAssign {value value' : Expr} {target target' : Target}
    (htarget : target.Alike target') (hvalue : value.Alike value') :
    Lowering.Agree (w.lowerAssign value target) (w.lowerAssign value' target') := by
  match target, htarget with
  | .variable _, .variable _ =>
    exact .lift_bind (w.agree_lowerExpr hvalue) fun _ ↦ .refl _
  | .index _ _, .index _ hindices =>
    exact (Lowering.Agree.refl _).bind fun _ ↦ (Lowering.Agree.refl _).bind fun whole ↦
      (w.agree_lowerStore hvalue hindices whole).bind fun _ ↦ .refl _
  | .property _ _, .property htype hname =>
    exact .lift_bind (w.host.agree_setter htype hname) fun _ ↦
      .lift_bind (w.agree_lowerExpr hvalue) fun _ ↦ .refl _
  | .event _ _, .event htype hname =>
    match value, hvalue with
    | .variable _, .variable _ =>
      exact .lift_bind (w.host.agree_event htype hname) fun _ ↦ .refl _
    | .number _, .number _ => exact fun _ ↦ .errors _ _
    | .text _, .text _ => exact fun _ ↦ .errors _ _
    | .index _ _, .index _ _ => exact fun _ ↦ .errors _ _
    | .property _ _, .property _ _ => exact fun _ ↦ .errors _ _
    | .call _ _ _, .call _ _ _ => exact fun _ ↦ .errors _ _
    | .binary _ _ _, .binary _ _ _ => exact fun _ ↦ .errors _ _
    | .negate _, .negate _ => exact fun _ ↦ .errors _ _

theorem agree_lowerBounds {start start' stop stop' : Expr} {step step' : Option Expr}
    (hstart : start.Alike start') (hstop : stop.Alike stop')
    (hstep : ExprsAlike step.toList step'.toList) (slot last by_ : Nat) :
    Lowering.Agree (w.lowerBounds slot last by_ start stop step)
      (w.lowerBounds slot last by_ start' stop' step') := by
  match step, step', hstep with
  | none, none, _ =>
    exact .lift_bind (w.agree_lowerExpr hstart) fun _ ↦
      .lift_bind (w.agree_lowerExpr hstop) fun _ ↦ .refl _
  | some _, some _, .cons hstep _ =>
    exact .lift_bind (w.agree_lowerExpr hstart) fun _ ↦
      .lift_bind (w.agree_lowerExpr hstop) fun _ ↦
        .lift_bind (w.agree_lowerExpr hstep) fun _ ↦ .refl _

mutual

theorem agree_lowerStmt {s s' : Stmt} (hs : s.Alike s') (scope : Scope) :
    Lowering.Agree (w.lowerStmt scope s) (w.lowerStmt scope s') := by
  match s, hs with
  | .assign _ _ _, .assign htarget hvalue =>
    rw [lowerStmt, lowerStmt]
    exact w.agree_lowerAssign htarget hvalue
  | .call _ _ _ _, .call htype hname hargs =>
    rw [lowerStmt, lowerStmt]
    exact .lift_bind (w.host.agree_method htype hname) fun _ ↦
      .lift_bind (w.agree_lowerArgs hargs) fun _ ↦ .refl _
  | .cond _ _ _ _ _, .cond hcondition hbody harms hotherwise =>
    rw [lowerStmt, lowerStmt, hotherwise.isEmpty_eq]
    refine .lift_bind (w.agree_lowerCondition hcondition) fun _ ↦
      (agree_lowerStmts hbody scope.opened).bind fun _ ↦
        (agree_lowerArms harms scope.opened fun s ↦ ?_).bind fun _ ↦ .refl _
    split
    · exact .refl _
    · exact (agree_lowerStmts hotherwise s).map some
  | .while _ _ _, .while hcondition hbody =>
    rw [lowerStmt, lowerStmt]
    exact .lift_bind (w.agree_lowerCondition hcondition) fun _ ↦
      (agree_lowerStmts hbody scope.opened.opened).bind fun _ ↦ .refl _
  | .for _ _ _ _ _ _, .for _ hstart hstop hstep hbody =>
    rw [lowerStmt, lowerStmt]
    exact (Lowering.Agree.refl _).bind fun slot ↦ (Lowering.Agree.refl _).bind fun last ↦
      (Lowering.Agree.refl _).bind fun by_ ↦
        (w.agree_lowerBounds hstart hstop hstep slot last by_).bind fun _ ↦
          (agree_lowerStmts hbody scope.opened.opened).bind fun _ ↦ .refl _
  | .goto _ _, .goto _ => exact .refl _
  | .label _ _, .label _ => exact .refl _
  | .sub _ _ _, .sub _ _ => exact .refl _
  | .callSub _ _, .callSub _ => exact .refl _
  | .empty _, .empty => exact .refl _

theorem agree_lowerStmts {body body' : List Stmt} (hbody : StmtsAlike body body')
    (scope : Scope) : Lowering.Agree (w.lowerStmts scope body) (w.lowerStmts scope body') := by
  match body, hbody with
  | [], .nil => exact .refl _
  | s :: body, .cons hs hbody =>
    rw [lowerStmts, lowerStmts]
    exact (agree_lowerStmt hs scope).bind fun _ ↦
      (agree_lowerStmts hbody scope).bind fun _ ↦ .refl _

theorem agree_lowerArms {arms arms' : List Arm} (harms : ArmsAlike arms arms') (scope : Scope)
    {otherwise otherwise' : Scope → Lowering (Option (List Instr))}
    (hotherwise : ∀ s, Lowering.Agree (otherwise s) (otherwise' s)) :
    Lowering.Agree (w.lowerArms scope arms otherwise) (w.lowerArms scope arms' otherwise') := by
  match arms, harms with
  | [], .nil =>
    rw [lowerArms, lowerArms]
    exact hotherwise scope
  | .mk _ body :: arms, .cons hcondition hbody harms =>
    rw [lowerArms, lowerArms]
    exact .lift_bind (w.agree_lowerCondition hcondition) fun _ ↦
      (agree_lowerStmts hbody scope.opened).bind fun _ ↦
        (agree_lowerArms harms scope.opened hotherwise).bind fun _ ↦ .refl _

end

end Setting

/-! ## Routines -/

theorem Stmt.Alike.labelName?_eq {s s' : Stmt} (hs : s.Alike s') :
    s.labelName? = s'.labelName? := by
  cases hs <;> rfl

/-- Bodies that are alike are cut into segments that are alike. -/
theorem StmtsAlike.segments {body body' : List Stmt} (hbody : StmtsAlike body body') :
    List.Forall₂ StmtsAlike (segments body) (segments body') := by
  match body, body', hbody with
  | [], [], .nil => exact .cons .nil .nil
  | s :: rest, s' :: rest', .cons hs hrest =>
    have ih := hrest.segments
    cases hlabel : s.labelName? with
    | none =>
      obtain ⟨first, others, h⟩ := List.exists_cons_of_ne_nil (segments_ne_nil rest)
      obtain ⟨first', others', h'⟩ := List.exists_cons_of_ne_nil (segments_ne_nil rest')
      rw [segments_cons_of_none hlabel h, segments_cons_of_none (hs.labelName?_eq ▸ hlabel) h']
      rw [h, h'] at ih
      cases ih with
      | cons hfirst hothers => exact .cons (.cons hs hfirst) hothers
    | some name =>
      obtain ⟨span, rfl⟩ := Stmt.eq_label hlabel
      obtain ⟨span', rfl⟩ := Stmt.eq_label (hs.labelName?_eq ▸ hlabel)
      exact .cons .nil ih

/-- The bodies of the subroutines of programs that are alike are alike. -/
theorem StmtsAlike.topSubroutines {body body' : List Stmt} (hbody : StmtsAlike body body') :
    List.Forall₂ (fun s s' ↦ StmtsAlike s.2 s'.2) (topSubroutines body) (topSubroutines body') := by
  match body, hbody with
  | [], .nil => exact .nil
  | s :: rest, .cons hs hrest =>
    have ih := hrest.topSubroutines
    cases hs with
    | sub name hbody => exact .cons hbody ih
    | _ => exact ih

namespace Setting

variable (w : Setting)

theorem agree_lowerSegments {parts parts' : List (List Stmt)}
    (hparts : List.Forall₂ StmtsAlike parts parts') (scope : Scope) :
    Lowering.Agree (w.lowerSegments scope parts) (w.lowerSegments scope parts') := by
  induction hparts with
  | nil => exact .refl _
  | cons hpart hparts ih =>
    rw [lowerSegments, lowerSegments, hparts.length_eq]
    exact (w.agree_lowerStmts hpart _).bind fun _ ↦ ih.bind fun _ ↦ .refl _

theorem agree_lowerRoutine {body body' : List Stmt} (hbody : StmtsAlike body body')
    (routine : Routine) :
    Lowering.Agree (w.lowerRoutine routine body) (w.lowerRoutine routine body') := by
  have hparts := hbody.segments
  rw [lowerRoutine, lowerRoutine]
  generalize segments body = parts at hparts
  generalize segments body' = parts' at hparts
  have hlength := hparts.length_eq
  cases hparts with
  | nil => exact .refl _
  | cons hpart hrest =>
    cases hrest with
    | nil => exact w.agree_lowerStmts hbody _
    | cons hnext hrest =>
      dsimp only
      rw [hlength]
      exact (Lowering.Agree.refl _).bind fun _ ↦
        (w.agree_lowerSegments (.cons hpart (.cons hnext hrest)) _).bind fun _ ↦ .refl _

theorem agree_routineCode {body body' : List Stmt} (hbody : StmtsAlike body body')
    (routine : Routine) :
    Agree (w.routineCode routine body) (w.routineCode routine body') :=
  (w.agree_lowerRoutine hbody routine []).bind fun _ ↦ .refl _

/-- Programs that are alike have the same code. -/
theorem agree_lowerProgram {p q : Program} (hpq : p.Alike q) :
    Agree (w.lowerProgram p) (w.lowerProgram q) := by
  have hbodies : List.Forall₂ StmtsAlike p.subroutineBodies q.subroutineBodies := by
    rw [p.subroutineBodies_eq, q.subroutineBodies_eq, List.forall₂_map_left_iff,
      List.forall₂_map_right_iff]
    exact hpq.body.topSubroutines
  refine (w.agree_routineCode hpq.body .entry).bind fun _ ↦ Agree.bind ?_ fun _ ↦ .refl _
  refine .mapM ((forall₂_zipIdx hbodies 0).imp ?_)
  rintro ⟨body, i⟩ ⟨body', j⟩ ⟨hbody, rfl⟩
  exact w.agree_routineCode hbody _

end Setting

namespace Host

theorem agree_module {p q : Program} (h : Host) (hpq : p.Alike q) (source : String) :
    Agree (h.module p source) (h.module q source) :=
  (Tables.agree_ofProgram h hpq).bind fun t ↦
    (Setting.agree_lowerProgram ⟨h, t⟩ hpq).bind fun _ ↦ .refl _

theorem agree_assemble {p q : Program} (h : Host) (hpq : p.Alike q) (source : String) :
    Agree (h.assemble p source) (h.assemble q source) :=
  (h.agree_module hpq source).bind fun _ ↦ .refl _

end Host

end ScriptWasm
