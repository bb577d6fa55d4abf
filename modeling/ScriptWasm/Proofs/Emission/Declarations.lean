import Mathlib.Algebra.Order.BigOperators.Group.Finset
import ScriptWasm.Proofs.Emission.Growth
import ScriptWasm.Proofs.Lists

/-!
# Declared labels and subroutines

Most demands declare nothing. Those of an admitted program that do stand at the top of a routine, so
the labels and subroutines that the first walk collects are read off the statements there: the
labels of each routine in their order, and the subroutines in theirs. A body can be walked exactly
if it declares no name twice, as long as there is room for its texts.
-/

namespace ScriptWasm

open Wasm

/-! ## What holds of every demand -/

/-- A property of demands that every library member and every text has. -/
structure IsCommon (P : Demand → Prop) : Prop where
  method : ∀ m : MethodDescriptor, P (.function m.source m.signature)
  getter : ∀ source, P (.function source getterSignature)
  setter : ∀ source, P (.function source setterSignature)
  text : ∀ contents, P (.text contents)

namespace IsCommon

variable {P : Demand → Prop} {r : Registry}

theorem callDemands (hP : IsCommon P) (type method : String) :
    ∀ d ∈ r.callDemands type method, P d := by
  rw [Registry.callDemands, List.forall_mem_map]
  exact fun m _ ↦ hP.method m

theorem getterDemands (hP : IsCommon P) (type name : String) :
    ∀ d ∈ r.getterDemands type name, P d := by
  rw [Registry.getterDemands, List.forall_mem_map]
  exact fun source _ ↦ hP.getter source

theorem setterDemands (hP : IsCommon P) (type name : String) :
    ∀ d ∈ r.setterDemands type name, P d := by
  rw [Registry.setterDemands, List.forall_mem_map]
  exact fun source _ ↦ hP.setter source

theorem eventDemands (hP : IsCommon P) (type name : String) :
    ∀ d ∈ r.eventDemands type name, P d := by
  rw [Registry.eventDemands, List.forall_mem_map]
  exact fun e _ ↦ hP.setter e.subscribe

mutual

theorem exprDemands (hP : IsCommon P) (e : Expr) : ∀ d ∈ r.exprDemands e, P d := by
  match e with
  | .number _ => exact nofun
  | .variable _ => exact nofun
  | .text text => exact List.forall_mem_singleton.mpr (hP.text text)
  | .index array indices => exact exprsDemands hP indices
  | .property type name => exact hP.getterDemands type name
  | .call type method args =>
    exact List.forall_mem_append.mpr ⟨hP.callDemands type method, exprsDemands hP args⟩
  | .binary op left right =>
    exact List.forall_mem_append.mpr ⟨exprDemands hP left, exprDemands hP right⟩
  | .negate operand => exact exprDemands hP operand

theorem exprsDemands (hP : IsCommon P) (es : List Expr) : ∀ d ∈ r.exprsDemands es, P d := by
  match es with
  | [] => exact nofun
  | e :: rest => exact List.forall_mem_append.mpr ⟨exprDemands hP e, exprsDemands hP rest⟩

end

theorem assignDemands (hP : IsCommon P) (value : Expr) (target : Target) :
    ∀ d ∈ r.assignDemands value target, P d := by
  match target with
  | .variable name => exact hP.exprDemands value
  | .index array indices =>
    exact List.forall_mem_append.mpr ⟨hP.exprsDemands indices, hP.exprDemands value⟩
  | .property type name =>
    exact List.forall_mem_append.mpr ⟨hP.setterDemands type name, hP.exprDemands value⟩
  | .event type name => exact hP.eventDemands type name

end IsCommon

/-- A property of demands that declarations have as well. -/
structure IsUniversal (P : Demand → Prop) : Prop extends IsCommon P where
  label : ∀ name, P (.label name)
  enter : ∀ name, P (.enter name)
  leave : P .leave

namespace IsUniversal

variable {P : Demand → Prop} {r : Registry}

mutual

theorem stmtDemands (hP : IsUniversal P) (s : Stmt) : ∀ d ∈ r.stmtDemands s, P d := by
  match s with
  | .assign target value _ => exact hP.assignDemands value target
  | .call type method args _ =>
    exact List.forall_mem_append.mpr ⟨hP.callDemands type method, hP.exprsDemands args⟩
  | .cond condition body arms otherwise _ =>
    simp only [Registry.stmtDemands, List.forall_mem_append]
    exact ⟨⟨⟨hP.exprDemands condition, stmtsDemands hP body⟩, armsDemands hP arms⟩,
      stmtsDemands hP otherwise⟩
  | .while condition body _ =>
    exact List.forall_mem_append.mpr ⟨hP.exprDemands condition, stmtsDemands hP body⟩
  | .for name start stop step body _ =>
    simp only [Registry.stmtDemands, List.forall_mem_append]
    exact ⟨⟨⟨hP.exprDemands start, hP.exprDemands stop⟩, hP.exprsDemands step.toList⟩,
      stmtsDemands hP body⟩
  | .label name _ => exact List.forall_mem_singleton.mpr (hP.label name)
  | .sub name body _ =>
    simp only [Registry.stmtDemands, List.cons_append, List.forall_mem_cons,
      List.forall_mem_append]
    exact ⟨hP.enter name, stmtsDemands hP body, hP.leave, nofun⟩
  | .goto .. | .callSub .. | .empty .. => exact nofun

theorem stmtsDemands (hP : IsUniversal P) (body : List Stmt) : ∀ d ∈ r.stmtsDemands body, P d := by
  match body with
  | [] => exact nofun
  | s :: rest => exact List.forall_mem_append.mpr ⟨stmtDemands hP s, stmtsDemands hP rest⟩

theorem armsDemands (hP : IsUniversal P) (arms : List Arm) : ∀ d ∈ r.armsDemands arms, P d := by
  match arms with
  | [] => exact nofun
  | .mk condition body :: rest =>
    simp only [Registry.armsDemands, List.forall_mem_append]
    exact ⟨⟨hP.exprDemands condition, stmtsDemands hP body⟩, armsDemands hP rest⟩

end

end IsUniversal

/-! ## Demands that declare nothing -/

/-- A demand that declares nothing. -/
def Demand.IsPlain : Demand → Prop
  | .function _ _ => True
  | .text _ => True
  | _ => False

theorem isCommon_isPlain : IsCommon Demand.IsPlain :=
  ⟨fun _ ↦ trivial, fun _ ↦ trivial, fun _ ↦ trivial, fun _ ↦ trivial⟩

def PlainDemands (ds : List Demand) : Prop := ∀ d ∈ ds, d.IsPlain

@[simp] theorem plainDemands_nil : PlainDemands [] := nofun

@[simp] theorem plainDemands_append {ds ds' : List Demand} :
    PlainDemands (ds ++ ds') ↔ PlainDemands ds ∧ PlainDemands ds' :=
  List.forall_mem_append

namespace Registry

variable {r : Registry}

/-- In a block nothing may be declared. -/
theorem AdmitsStmt.declares_nothing {s : Stmt} (ha : r.AdmitsStmt .block s) :
    s.labelName? = none ∧ s.subroutine? = none := by
  cases s with
  | label name span => exact absurd rfl ha
  | sub name body span => cases ha.1
  | _ => exact ⟨rfl, rfl⟩

theorem AdmitsStmt.subroutine?_eq_none {s : Stmt} (ha : r.AdmitsStmt .subroutine s) :
    s.subroutine? = none := by
  cases s with
  | sub name body span => cases ha.1
  | _ => rfl

mutual

/-- Only labels and subroutines declare something. -/
theorem plain_stmtDemands {kind : ScopeKind} {s : Stmt} (ha : r.AdmitsStmt kind s)
    (hl : s.labelName? = none) (hs : s.subroutine? = none) : PlainDemands (r.stmtDemands s) := by
  match s with
  | .assign target value _ => exact isCommon_isPlain.assignDemands value target
  | .call type method args _ =>
    rw [stmtDemands, plainDemands_append]
    exact ⟨isCommon_isPlain.callDemands type method, isCommon_isPlain.exprsDemands args⟩
  | .cond condition body arms otherwise _ =>
    simp only [stmtDemands, plainDemands_append]
    exact ⟨⟨⟨isCommon_isPlain.exprDemands condition, plain_stmtsDemands ha.2.1⟩,
      plain_armsDemands ha.2.2.1⟩, plain_stmtsDemands ha.2.2.2⟩
  | .while condition body _ =>
    rw [stmtDemands, plainDemands_append]
    exact ⟨isCommon_isPlain.exprDemands condition, plain_stmtsDemands ha.2⟩
  | .for name start stop step body _ =>
    simp only [stmtDemands, plainDemands_append]
    exact ⟨⟨⟨isCommon_isPlain.exprDemands start, isCommon_isPlain.exprDemands stop⟩,
      isCommon_isPlain.exprsDemands step.toList⟩, plain_stmtsDemands ha.2.2.2⟩
  | .goto .. => exact plainDemands_nil
  | .callSub .. => exact plainDemands_nil
  | .empty .. => exact plainDemands_nil

theorem plain_stmtsDemands {body : List Stmt} (ha : r.AdmitsStmts .block body) :
    PlainDemands (r.stmtsDemands body) := by
  match body with
  | [] => exact plainDemands_nil
  | s :: rest =>
    obtain ⟨hl, hs⟩ := ha.1.declares_nothing
    rw [stmtsDemands, plainDemands_append]
    exact ⟨plain_stmtDemands ha.1 hl hs, plain_stmtsDemands ha.2⟩

theorem plain_armsDemands {arms : List Arm} (ha : r.AdmitsArms arms) :
    PlainDemands (r.armsDemands arms) := by
  match arms with
  | [] => exact plainDemands_nil
  | .mk condition body :: rest =>
    simp only [armsDemands, plainDemands_append]
    exact ⟨⟨isCommon_isPlain.exprDemands condition, plain_stmtsDemands ha.2.1⟩,
      plain_armsDemands ha.2.2⟩

end

end Registry

namespace Tables

/-! ## What has been declared -/

/-- The subroutines and labels that have been declared, and the routine that is being walked. -/
def declared (q : Tables × Routine) : List String × List (List String) × Routine :=
  (q.1.subroutines, q.1.labels, q.2)

variable {q q' : Tables × Routine}

theorem Meets.declared_eq {d : Demand} (h : Meets q d q') (hd : d.IsPlain) :
    declared q' = declared q := by
  cases h with
  | knownFunction _ => rfl
  | newFunction _ _ _ _ => rfl
  | knownText _ => rfl
  | newText _ _ _ => rfl
  | label _ => exact hd.elim
  | enter _ => exact hd.elim
  | leave => exact hd.elim

theorem declared_meetAll {ds : List Demand} (hds : PlainDemands ds) (hm : meetAll q ds = .ok q') :
    declared q' = declared q := by
  induction ds generalizing q with
  | nil =>
    cases hm
    rfl
  | cons d ds ih =>
    rw [meetAll_cons, bind_eq_ok_iff] at hm
    obtain ⟨q₁, hd, hm⟩ := hm
    obtain ⟨hplain, hds⟩ := List.forall_mem_cons.mp hds
    rw [ih hds hm, (meets_of_meet hd).declared_eq hplain]

section Routine

variable {subs labels : List String} {before after : List (List String)} {routine : Routine}

theorem meet_label_eq (hq : declared q = (subs, before ++ labels :: after, routine))
    (hpos : routine.position = before.length) (name : String) :
    meet q (.label name) =
      if name ∈ labels then .error (.unsupported (.repeatedLabel name))
      else .ok ({ q.1 with labels := before ++ (labels ++ [name]) :: after }, routine) := by
  obtain ⟨t, r⟩ := q
  simp only [declared, Prod.mk.injEq] at hq
  obtain ⟨-, hlabels, rfl⟩ := hq
  have hof : t.labelsOf r = labels := by simp [labelsOf, hlabels, hpos]
  simp only [meet, declareLabel, hof, hlabels, hpos, modify_length_append, List.contains_iff_mem]
  split <;> rfl

/-- A statement that is no subroutine declares at most a label, behind those of its routine. -/
theorem declared_meetAll_stmtDemands {r : Registry} {kind : ScopeKind} {s : Stmt}
    (ha : r.AdmitsStmt kind s) (hs : s.subroutine? = none)
    (hq : declared q = (subs, before ++ labels :: after, routine))
    (hpos : routine.position = before.length) (hm : meetAll q (r.stmtDemands s) = .ok q') :
    declared q' = (subs, before ++ (labels ++ s.labelName?.toList) :: after, routine) := by
  cases hl : s.labelName? with
  | none =>
    rw [declared_meetAll (Registry.plain_stmtDemands ha hl hs) hm, hq, Option.toList_none,
      List.append_nil]
  | some name =>
    obtain ⟨span, rfl⟩ := Stmt.eq_label hl
    rw [Registry.stmtDemands, meetAll_cons, meet_label_eq hq hpos] at hm
    split at hm
    · cases hm
    · cases hm
      rw [declared, (Prod.mk.inj hq).1, Option.toList_some]

/-- The walk over the body of a subroutine adds its labels to those of the routine. -/
theorem declared_meetAll_subroutine {r : Registry} {body : List Stmt}
    (ha : r.AdmitsStmts .subroutine body)
    (hq : declared q = (subs, before ++ labels :: after, routine))
    (hpos : routine.position = before.length) (hm : meetAll q (r.stmtsDemands body) = .ok q') :
    declared q' = (subs, before ++ (labels ++ labelNames body) :: after, routine) := by
  induction body generalizing q labels with
  | nil =>
    cases hm
    rw [hq, labelNames_nil, List.append_nil]
  | cons s rest ih =>
    rw [Registry.stmtsDemands, meetAll_append, bind_eq_ok_iff] at hm
    obtain ⟨q₁, hs, hrest⟩ := hm
    have hq₁ := declared_meetAll_stmtDemands ha.1 ha.1.subroutine?_eq_none hq hpos hs
    rw [ih ha.2 hq₁ hrest, labelNames_cons, List.append_assoc]

end Routine

/-- A subroutine that is entered is the last one, and has no labels yet. -/
theorem meet_enter_eq {subs labels : List String} {others : List (List String)}
    (hq : declared q = (subs, labels :: others, .entry)) (name : String) :
    meet q (.enter name) =
      if name ∈ subs then .error (.unsupported (.repeatedSubroutine name))
      else if subs.length < indexLimit then
        .ok ({ q.1 with subroutines := subs ++ [name], labels := (labels :: others) ++ [[]] },
          .subroutine subs.length)
      else .error (.limitExceeded .subroutines) := by
  obtain ⟨t, r⟩ := q
  simp only [declared, Prod.mk.injEq] at hq
  obtain ⟨rfl, hlabels, rfl⟩ := hq
  simp only [meet, declareSubroutine, hlabels, List.contains_iff_mem]
  split
  · rfl
  · split <;> rfl

/-- A subroutine is declared with the labels of its body, and the walk is back where it was. -/
theorem declared_meetAll_sub {r : Registry} {name : String} {body : List Stmt} {span : Span}
    (ha : r.AdmitsStmts .subroutine body) {subs labels : List String}
    {others : List (List String)} (hq : declared q = (subs, labels :: others, .entry))
    (hlen : others.length = subs.length)
    (hm : meetAll q (r.stmtDemands (.sub name body span)) = .ok q') :
    declared q' = (subs ++ [name], labels :: (others ++ [labelNames body]), .entry) := by
  rw [Registry.stmtDemands, List.cons_append, meetAll_cons, meet_enter_eq hq] at hm
  split at hm
  · cases hm
  · split at hm
    · rw [ok_bind, meetAll_append, bind_eq_ok_iff] at hm
      obtain ⟨q₂, hbody, hleave⟩ := hm
      have hq₂ : declared q₂ = (subs ++ [name], (labels :: others) ++ ([] ++ labelNames body) :: [],
          .subroutine subs.length) :=
        declared_meetAll_subroutine ha rfl (by simp [Routine.position, hlen]) hbody
      simp only [declared, Prod.mk.injEq] at hq₂
      cases hleave
      rw [declared, hq₂.1, hq₂.2.1, List.nil_append, List.cons_append]
    · cases hm

/-- The walk over a program: behind what is declared already come the labels of the program, its
subroutines, and the labels of each of them. -/
theorem declared_meetAll_entry {r : Registry} {body : List Stmt} (ha : r.AdmitsStmts .entry body)
    {subs labels : List String} {others : List (List String)}
    (hq : declared q = (subs, labels :: others, .entry)) (hlen : others.length = subs.length)
    (hm : meetAll q (r.stmtsDemands body) = .ok q') :
    declared q' = (subs ++ subroutineNames body, (labels ++ labelNames body) ::
      (others ++ (topSubroutines body).map fun s ↦ labelNames s.2), .entry) := by
  induction body generalizing q subs labels others with
  | nil =>
    cases hm
    simp [hq, subroutineNames, topSubroutines]
  | cons s rest ih =>
    rw [Registry.stmtsDemands, meetAll_append, bind_eq_ok_iff] at hm
    obtain ⟨q₁, hs, hrest⟩ := hm
    cases hsub : s.subroutine? with
    | none =>
      have hq₀ : declared q = (subs, [] ++ labels :: others, .entry) := hq
      have hq₁ := declared_meetAll_stmtDemands ha.1 hsub hq₀ rfl hs
      rw [ih ha.2 hq₁ hlen hrest, subroutineNames, subroutineNames,
        topSubroutines_cons_of_none hsub, labelNames_cons, List.append_assoc]
    | some sub =>
      obtain ⟨span, rfl⟩ := Stmt.eq_sub hsub
      have hq₁ := declared_meetAll_sub ha.1.2 hq hlen hs
      rw [ih ha.2 hq₁ (by simp [hlen]) hrest]
      simp [subroutineNames, labelNames_cons, Stmt.labelName?]

/-! ## Room for texts -/

/-- The tables hold nothing but the given texts, each once and with its own length. -/
structure HoldsTexts (texts : Finset String) (t : Tables) : Prop where
  nodup : (t.texts.map (·.text)).Nodup
  mem : ∀ e ∈ t.texts, e.text ∈ texts
  length : ∀ e ∈ t.texts, e.extent.length = e.text.utf8ByteSize

/-- There is room in memory for the given texts. -/
def HasRoom (texts : Finset String) : Prop :=
  dataStart + ∑ s ∈ texts, s.utf8ByteSize < indexLimit

instance (texts : Finset String) : Decidable (HasRoom texts) := inferInstanceAs (Decidable (_ < _))

variable {texts : Finset String}

theorem HoldsTexts.dataSize_eq {t : Tables} (h : t.HoldsTexts texts) :
    t.dataSize = ∑ s ∈ (t.texts.map (·.text)).toFinset, s.utf8ByteSize := by
  rw [List.sum_toFinset _ h.nodup, List.map_map, dataSize, ← List.foldr_map, ← List.sum_eq_foldr]
  exact congrArg List.sum (List.map_congr_left h.length)

theorem HoldsTexts.dataSize_le {t : Tables} (h : t.HoldsTexts texts) :
    t.dataSize ≤ ∑ s ∈ texts, s.utf8ByteSize := by
  rw [h.dataSize_eq]
  refine Finset.sum_le_sum_of_subset fun s hs ↦ ?_
  rw [List.mem_toFinset, List.mem_map] at hs
  obtain ⟨e, he, rfl⟩ := hs
  exact h.mem e he

theorem textExtent?_eq_none_iff {t : Tables} {text : String} :
    t.textExtent? text = none ↔ text ∉ t.texts.map (·.text) := by
  simp [textExtent?, List.find?_eq_none]

theorem HoldsTexts.meet {d : Demand} (h : q.1.HoldsTexts texts)
    (hd : ∀ text, d = .text text → text ∈ texts) (hm : Meets q d q') : q'.1.HoldsTexts texts := by
  cases hm with
  | knownFunction _ => exact h
  | newFunction _ _ _ _ => exact ⟨h.nodup, h.mem, h.length⟩
  | knownText _ => exact h
  | @newText t _ contents new =>
    rw [textExtent?_eq_none_iff] at new
    refine ⟨?_, ?_, ?_⟩
    · rw [List.map_append, List.map_singleton, ← List.concat_eq_append, List.nodup_concat]
      exact ⟨new, h.nodup⟩
    · exact List.forall_mem_append.mpr ⟨h.mem, by simpa using hd contents rfl⟩
    · exact List.forall_mem_append.mpr ⟨h.length, by simp⟩
  | label _ => exact ⟨h.nodup, h.mem, h.length⟩
  | enter _ => exact ⟨h.nodup, h.mem, h.length⟩
  | leave => exact h

theorem HoldsTexts.meetAll {ds : List Demand} (h : q.1.HoldsTexts texts)
    (hds : ∀ text, .text text ∈ ds → text ∈ texts) (hm : meetAll q ds = .ok q') :
    q'.1.HoldsTexts texts := by
  induction ds generalizing q with
  | nil =>
    cases hm
    exact h
  | cons d ds ih =>
    rw [meetAll_cons, bind_eq_ok_iff] at hm
    obtain ⟨q₁, hd, hm⟩ := hm
    have h₁ := h.meet (fun text hd ↦ hds text (hd ▸ List.mem_cons_self)) (meets_of_meet hd)
    exact ih h₁ (fun text ht ↦ hds text (List.mem_cons_of_mem d ht)) hm

/-- As long as there is room, a demand that declares nothing can be met. -/
theorem exists_meet {d : Demand} (hroom : HasRoom texts) (h : q.1.HoldsTexts texts)
    (hplain : d.IsPlain) (hd : ∀ text, d = .text text → text ∈ texts) :
    ∃ q', meet q d = .ok q' := by
  obtain ⟨t, routine⟩ := q
  cases d with
  | function source type => exact ⟨_, rfl⟩
  | text contents =>
    cases he : t.textExtent? contents with
    | some e =>
      simp only [meet, bind_eq_ok_iff, pure_eq_ok_iff, addText_eq_ok_iff]
      exact ⟨_, _, .inl ⟨e, he, rfl⟩, rfl⟩
    | none =>
      have hsize := h.dataSize_le
      have hlength : contents.utf8ByteSize ≤ ∑ s ∈ texts, s.utf8ByteSize :=
        Finset.single_le_sum (f := String.utf8ByteSize) (fun _ _ ↦ Nat.zero_le _) (hd contents rfl)
      rw [HasRoom] at hroom
      simp only [meet, bind_eq_ok_iff, pure_eq_ok_iff, addText_eq_ok_iff]
      exact ⟨_, _, .inr ⟨he, by simp only at hsize; omega, by omega, rfl⟩, rfl⟩
  | label name => exact hplain.elim
  | enter name => exact hplain.elim
  | leave => exact hplain.elim

theorem exists_meetAll {ds : List Demand} (hroom : HasRoom texts) (h : q.1.HoldsTexts texts)
    (hplain : PlainDemands ds) (hds : ∀ text, .text text ∈ ds → text ∈ texts) :
    ∃ q', meetAll q ds = .ok q' := by
  induction ds generalizing q with
  | nil => exact ⟨q, rfl⟩
  | cons d ds ih =>
    have hd : ∀ text, d = .text text → text ∈ texts :=
      fun text hd ↦ hds text (hd ▸ List.mem_cons_self)
    obtain ⟨q₁, hq₁⟩ := exists_meet hroom h (hplain d List.mem_cons_self) hd
    rw [meetAll_cons, hq₁, ok_bind]
    exact ih (h.meet hd (meets_of_meet hq₁)) (fun d hd ↦ hplain d (List.mem_cons_of_mem _ hd))
      fun text ht ↦ hds text (List.mem_cons_of_mem d ht)

/-! ## When a body can be walked -/

theorem exists_meetAll_append_iff {ds ds' : List Demand} {P Q : Prop}
    (h : (∃ q₁, meetAll q ds = .ok q₁) ↔ P)
    (h' : ∀ q₁, meetAll q ds = .ok q₁ → ((∃ q', meetAll q₁ ds' = .ok q') ↔ Q)) :
    (∃ q', meetAll q (ds ++ ds') = .ok q') ↔ P ∧ Q := by
  simp only [meetAll_append, bind_eq_ok_iff]
  constructor
  · rintro ⟨q', q₁, hq₁, hq'⟩
    exact ⟨h.mp ⟨q₁, hq₁⟩, (h' q₁ hq₁).mp ⟨q', hq'⟩⟩
  · rintro ⟨hP, hQ⟩
    obtain ⟨q₁, hq₁⟩ := h.mpr hP
    obtain ⟨q', hq'⟩ := (h' q₁ hq₁).mpr hQ
    exact ⟨q', q₁, hq₁, hq'⟩

section Walk

variable {r : Registry} {subs labels : List String} {before after : List (List String)}
  {routine : Routine}

theorem exists_meetAll_stmtDemands_iff {kind : ScopeKind} {s : Stmt} (hroom : HasRoom texts)
    (ha : r.AdmitsStmt kind s) (hs : s.subroutine? = none)
    (hq : declared q = (subs, before ++ labels :: after, routine))
    (hpos : routine.position = before.length) (h : q.1.HoldsTexts texts)
    (htexts : ∀ text, .text text ∈ r.stmtDemands s → text ∈ texts) (hlabels : labels.Nodup) :
    (∃ q', meetAll q (r.stmtDemands s) = .ok q') ↔ (labels ++ s.labelName?.toList).Nodup := by
  cases hl : s.labelName? with
  | none =>
    rw [Option.toList_none, List.append_nil]
    exact iff_of_true (exists_meetAll hroom h (Registry.plain_stmtDemands ha hl hs) htexts) hlabels
  | some name =>
    obtain ⟨span, rfl⟩ := Stmt.eq_label hl
    rw [Registry.stmtDemands, meetAll_cons, meet_label_eq hq hpos, Option.toList_some,
      ← List.concat_eq_append, List.nodup_concat]
    by_cases hmem : name ∈ labels
    · simp [hmem, bind, Except.bind]
    · simp [hmem, hlabels]

/-- The body of a subroutine can be walked exactly if it declares no label twice. -/
theorem exists_meetAll_subroutine_iff {body : List Stmt} (hroom : HasRoom texts)
    (ha : r.AdmitsStmts .subroutine body)
    (hq : declared q = (subs, before ++ labels :: after, routine))
    (hpos : routine.position = before.length) (h : q.1.HoldsTexts texts)
    (htexts : ∀ text, .text text ∈ r.stmtsDemands body → text ∈ texts) (hlabels : labels.Nodup) :
    (∃ q', meetAll q (r.stmtsDemands body) = .ok q') ↔ (labels ++ labelNames body).Nodup := by
  induction body generalizing q labels with
  | nil =>
    rw [labelNames_nil, List.append_nil]
    exact iff_of_true ⟨q, rfl⟩ hlabels
  | cons s rest ih =>
    simp only [Registry.stmtsDemands, List.mem_append, or_imp, forall_and] at htexts
    have hs := ha.1.subroutine?_eq_none
    have hstep := exists_meetAll_stmtDemands_iff hroom ha.1 hs hq hpos h htexts.1 hlabels
    rw [Registry.stmtsDemands, labelNames_cons, ← List.append_assoc,
      exists_meetAll_append_iff hstep fun q₁ hq₁ ↦
        ih ha.2 (declared_meetAll_stmtDemands ha.1 hs hq hpos hq₁) (h.meetAll htexts.1 hq₁)
          htexts.2 (hstep.mp ⟨q₁, hq₁⟩)]
    exact and_iff_right_of_imp fun hnodup ↦ (List.nodup_append.mp hnodup).1

theorem exists_meetAll_sub_iff {name : String} {body : List Stmt} {span : Span}
    {others : List (List String)} (hroom : HasRoom texts) (ha : r.AdmitsStmts .subroutine body)
    (hq : declared q = (subs, labels :: others, .entry)) (hlen : others.length = subs.length)
    (h : q.1.HoldsTexts texts)
    (htexts : ∀ text, .text text ∈ r.stmtsDemands body → text ∈ texts) (hsubs : subs.Nodup)
    (hcount : subs.length < indexLimit) :
    (∃ q', meetAll q (r.stmtDemands (.sub name body span)) = .ok q') ↔
      (subs ++ [name]).Nodup ∧ (labelNames body).Nodup := by
  rw [Registry.stmtDemands, List.cons_append, meetAll_cons, ← @List.concat_eq_append _ subs,
    List.nodup_concat]
  by_cases hmem : name ∈ subs
  · simp [meet_enter_eq hq, hmem, bind, Except.bind]
  · obtain ⟨q₁, henter, hq₁⟩ : ∃ q₁, meet q (.enter name) = .ok q₁ ∧
        declared q₁ = (subs ++ [name], (labels :: others) ++ [[]], .subroutine subs.length) :=
      ⟨_, by rw [meet_enter_eq hq, if_neg hmem, if_pos hcount], rfl⟩
    have hbody := exists_meetAll_subroutine_iff hroom ha hq₁ (by simp [Routine.position, hlen])
      (h.meet (by simp) (meets_of_meet henter)) htexts .nil
    rw [henter, ok_bind, exists_meetAll_append_iff hbody fun q₂ _ ↦
      iff_of_true ⟨(q₂.1, .entry), rfl⟩ trivial]
    simp [hmem, hsubs]

/-- A program can be walked exactly if it declares no subroutine twice and none of its routines
declares a label twice. -/
theorem exists_meetAll_entry_iff {body : List Stmt} {others : List (List String)}
    (hroom : HasRoom texts) (ha : r.AdmitsStmts .entry body)
    (hq : declared q = (subs, labels :: others, .entry)) (hlen : others.length = subs.length)
    (h : q.1.HoldsTexts texts)
    (htexts : ∀ text, .text text ∈ r.stmtsDemands body → text ∈ texts) (hsubs : subs.Nodup)
    (hlabels : labels.Nodup) (hcount : subs.length + (topSubroutines body).length ≤ indexLimit) :
    (∃ q', meetAll q (r.stmtsDemands body) = .ok q') ↔
      (subs ++ subroutineNames body).Nodup ∧ (labels ++ labelNames body).Nodup ∧
        ∀ s ∈ topSubroutines body, (labelNames s.2).Nodup := by
  induction body generalizing q subs labels others with
  | nil =>
    refine iff_of_true ⟨q, rfl⟩ ?_
    simp [subroutineNames, topSubroutines, hsubs, hlabels]
  | cons s rest ih =>
    simp only [Registry.stmtsDemands, List.mem_append, or_imp, forall_and] at htexts
    rw [Registry.stmtsDemands, labelNames_cons]
    cases hsub : s.subroutine? with
    | none =>
      have hq₀ : declared q = (subs, [] ++ labels :: others, .entry) := hq
      have hstep := exists_meetAll_stmtDemands_iff hroom ha.1 hsub hq₀ rfl h
        htexts.1 hlabels
      rw [topSubroutines_cons_of_none hsub] at hcount
      rw [subroutineNames, topSubroutines_cons_of_none hsub, ← List.append_assoc,
        exists_meetAll_append_iff hstep fun q₁ hq₁ ↦
          ih ha.2 (declared_meetAll_stmtDemands ha.1 hsub hq₀ rfl hq₁) hlen
            (h.meetAll htexts.1 hq₁) htexts.2 hsubs (hstep.mp ⟨q₁, hq₁⟩) hcount]
      exact and_iff_right_of_imp fun hnodup ↦ (List.nodup_append.mp hnodup.2.1).1
    | some sub =>
      obtain ⟨span, rfl⟩ := Stmt.eq_sub hsub
      rw [topSubroutines_sub, List.length_cons] at hcount
      have htext : ∀ text, .text text ∈ r.stmtsDemands sub.2 → text ∈ texts := fun text ht ↦
        htexts.1 text (by simp [Registry.stmtDemands, ht])
      have hstep : (∃ q', meetAll q (r.stmtDemands (.sub sub.1 sub.2 span)) = .ok q') ↔ _ :=
        exists_meetAll_sub_iff hroom ha.1.2 hq hlen h htext hsubs (by omega)
      rw [exists_meetAll_append_iff hstep fun q₁ hq₁ ↦
        ih ha.2 (declared_meetAll_sub ha.1.2 hq hlen hq₁) (by simp [hlen]) (h.meetAll htexts.1 hq₁)
          htexts.2 (hstep.mp ⟨q₁, hq₁⟩).1 hlabels (by simp; omega)]
      simp only [subroutineNames, topSubroutines_sub, List.map_cons, List.append_assoc,
        List.singleton_append, Stmt.labelName?, Option.toList_none, List.nil_append,
        List.forall_mem_cons]
      constructor
      · rintro ⟨⟨-, hbody⟩, hsubs, hlabels, hothers⟩
        exact ⟨hsubs, hlabels, hbody, hothers⟩
      · rintro ⟨hsubs, hlabels, hbody, hothers⟩
        rw [← List.singleton_append, ← List.append_assoc] at hsubs
        exact ⟨⟨(List.nodup_append.mp hsubs).1, hbody⟩, by simpa using hsubs, hlabels, hothers⟩

end Walk

end Tables

end ScriptWasm
