import ScriptWasm.Emission.Prepare
import ScriptWasm.Proofs.Analysis.Verdict
import ScriptWasm.Proofs.Sequencing

/-!
# The first walk as a list of demands

The walk that fills the tables is recursive in the program, but what it does to the tables is a
plain sequence: a function is needed, a text is needed, a label is declared, a subroutine begins or
ends. The sequence depends on the program and the registry alone, not on the tables. So the walk is
cut in two here, once and for all: a program has a list of demands, and the tables meet them one
after the other. Whatever is said later about the tables is an induction over that list.

The walk succeeds exactly if the program is admitted and all of its demands can be met.
-/

namespace ScriptWasm

open Wasm

/-- Something that the tables of a program have to provide. -/
inductive Demand where
  /-- A library member is imported with its signature. -/
  | function (source : ImportRef) (type : FuncType)
  | text (contents : String)
  /-- A label of the routine that is being walked. -/
  | label (name : String)
  /-- The body of a subroutine begins. -/
  | enter (name : String)
  /-- The body of a subroutine has ended. -/
  | leave
deriving DecidableEq, Repr

/-! ## The demands of a program -/

namespace Registry

variable (r : Registry)

/-- The demand of a call; one that cannot be made demands nothing. -/
def callDemands (type method : String) : List Demand :=
  (r.method? type method).toList.map fun m ↦ .function m.source m.signature

def getterDemands (type name : String) : List Demand :=
  ((r.property? type name).bind (·.getter?)).toList.map (.function · getterSignature)

def setterDemands (type name : String) : List Demand :=
  ((r.property? type name).bind (·.setter?)).toList.map (.function · setterSignature)

def eventDemands (type name : String) : List Demand :=
  (r.event? type name).toList.map fun e ↦ .function e.subscribe setterSignature

mutual

def exprDemands : Expr → List Demand
  | .number _ => []
  | .variable _ => []
  | .text text => [.text text]
  | .index _ indices => exprsDemands indices
  | .property type name => r.getterDemands type name
  | .call type method args => r.callDemands type method ++ exprsDemands args
  | .binary _ left right => exprDemands left ++ exprDemands right
  | .negate operand => exprDemands operand

def exprsDemands : List Expr → List Demand
  | [] => []
  | e :: rest => exprDemands e ++ exprsDemands rest

end

def assignDemands (value : Expr) : Target → List Demand
  | .variable _ => r.exprDemands value
  | .index _ indices => r.exprsDemands indices ++ r.exprDemands value
  | .property type name => r.setterDemands type name ++ r.exprDemands value
  | .event type name => r.eventDemands type name

mutual

def stmtDemands : Stmt → List Demand
  | .assign target value _ => r.assignDemands value target
  | .call type method args _ => r.callDemands type method ++ r.exprsDemands args
  | .cond condition body arms otherwise _ =>
    r.exprDemands condition ++ stmtsDemands body ++ armsDemands arms ++ stmtsDemands otherwise
  | .while condition body _ => r.exprDemands condition ++ stmtsDemands body
  | .for _ start stop step body _ =>
    r.exprDemands start ++ r.exprDemands stop ++ r.exprsDemands step.toList ++ stmtsDemands body
  | .label name _ => [.label name]
  | .sub name body _ => .enter name :: stmtsDemands body ++ [.leave]
  | .goto _ _ => []
  | .callSub _ _ => []
  | .empty _ => []

def stmtsDemands : List Stmt → List Demand
  | [] => []
  | s :: rest => stmtDemands s ++ stmtsDemands rest

def armsDemands : List Arm → List Demand
  | [] => []
  | .mk condition body :: rest => r.exprDemands condition ++ stmtsDemands body ++ armsDemands rest

end

end Registry

/-! ## Meeting demands -/

namespace Tables

/-- Meets one demand. The routine is the one that is being walked. -/
def meet : Tables × Routine → Demand → Except EmitError (Tables × Routine)
  | (t, routine), .function source type => return ((t.addCapability source type).2, routine)
  | (t, routine), .text contents => do return ((← t.addText contents).2, routine)
  | (t, routine), .label name => do return ((← t.declareLabel routine name).2, routine)
  | (t, _), .enter name => do
    let (index, t) ← t.declareSubroutine name
    return (t, .subroutine index)
  | (t, _), .leave => return (t, .entry)

/-- Meets demands one after the other. -/
def meetAll (q : Tables × Routine) (ds : List Demand) : Except EmitError (Tables × Routine) :=
  ds.foldlM meet q

@[simp] theorem meetAll_nil (q : Tables × Routine) : meetAll q [] = .ok q := rfl

theorem meetAll_cons (q : Tables × Routine) (d : Demand) (ds : List Demand) :
    meetAll q (d :: ds) = meet q d >>= fun q ↦ meetAll q ds := rfl

theorem meetAll_append (q : Tables × Routine) (ds ds' : List Demand) :
    meetAll q (ds ++ ds') = meetAll q ds >>= fun q ↦ meetAll q ds' := List.foldlM_append

/-- What holds at first and is kept whenever a demand is met holds once all are met. It may speak of
the demands that were met so far. -/
theorem meetAll_induction (P : List Demand → Tables × Routine → Prop)
    (step : ∀ {done q d q'}, P done q → meet q d = .ok q' → P (done ++ [d]) q')
    {ds : List Demand} {q q' : Tables × Routine} (hq : P [] q) (h : meetAll q ds = .ok q') :
    P ds q' := by
  suffices hall : ∀ done, P done q → P (done ++ ds) q' from hall [] hq
  clear hq
  induction ds generalizing q with
  | nil =>
    cases h
    intro done hdone
    rwa [List.append_nil]
  | cons d ds ih =>
    rw [meetAll_cons, bind_eq_ok_iff] at h
    obtain ⟨q₁, hd, hds⟩ := h
    intro done hdone
    have hrest := ih hds (done ++ [d]) (step hdone hd)
    rwa [List.append_assoc, List.singleton_append] at hrest

/-- What is picked from each demand as it is met is picked from all of them. -/
theorem meetAll_collects {α : Type} (P : List α → Tables → Prop) (pick? : Demand → Option α)
    (step : ∀ {as q d q'}, P as q.1 → meet q d = .ok q' → P (as ++ (pick? d).toList) q'.1)
    {ds : List Demand} {as : List α} {q q' : Tables × Routine} (hq : P as q.1)
    (h : meetAll q ds = .ok q') : P (as ++ ds.filterMap pick?) q'.1 := by
  refine meetAll_induction (fun done q ↦ P (as ++ done.filterMap pick?) q.1) ?_ ?_ h
  · intro done q d q' hdone hd
    have hone : [d].filterMap pick? = (pick? d).toList := by cases hd : pick? d <;> simp [hd]
    rw [List.filterMap_append, hone, ← List.append_assoc]
    exact step hdone hd
  · rwa [List.filterMap_nil, List.append_nil]

end Tables

/-- The kind of scope that a place is the inside of. -/
def Place.kind (p : Place) : ScopeKind :=
  if p.isNested then .block else if p.routine = .entry then .entry else .subroutine

namespace Place

@[simp] theorem kind_inner (p : Place) : p.inner.kind = .block := by
  simp [kind, inner, isNested]

theorem kind_eq_block_iff {p : Place} : p.kind = .block ↔ p.isNested = true := by
  simp only [kind]
  split <;> simp_all
  split <;> simp

theorem kind_eq_entry_iff {p : Place} :
    p.kind = .entry ↔ p.routine = .entry ∧ ¬p.isNested = true := by
  simp only [kind]
  split <;> simp_all

end Place

/-! ## Library members that are found -/

namespace Host

variable {h : Host} {type name : String}

theorem method_eq_ok_iff {m : MethodDescriptor} :
    h.method type name = .ok m ↔ h.registry.method? type name = some m := by
  rw [method]
  split <;> simp_all

theorem property_eq_ok_iff {p : PropertyDescriptor} :
    h.property type name = .ok p ↔ h.registry.property? type name = some p := by
  rw [property]
  split <;> simp_all

theorem event_eq_ok_iff {e : EventDescriptor} :
    h.event type name = .ok e ↔ h.registry.event? type name = some e := by
  rw [event]
  split <;> simp_all

theorem getter_eq_ok_iff {source : ImportRef} :
    h.getter type name = .ok source ↔
      ∃ p, h.registry.property? type name = some p ∧ p.getter? = some source := by
  rw [getter, bind_eq_ok_iff]
  simp only [property_eq_ok_iff]
  refine exists_congr fun p ↦ and_congr_right fun _ ↦ ?_
  split <;> simp_all

theorem setter_eq_ok_iff {source : ImportRef} :
    h.setter type name = .ok source ↔
      ∃ p, h.registry.property? type name = some p ∧ p.setter? = some source := by
  rw [setter, bind_eq_ok_iff]
  simp only [property_eq_ok_iff]
  refine exists_congr fun p ↦ and_congr_right fun _ ↦ ?_
  split <;> simp_all

end Host

namespace Tables

/-! ## Names that are found -/

theorem lt_of_lastIndex? {name : String} {names : List String} {i : Nat}
    (h : lastIndex? name names = some i) : i < names.length := by
  obtain ⟨j, hj, rfl⟩ := Option.map_eq_some_iff.mp h
  rw [List.idxOf?, List.findIdx?_eq_some_iff_getElem] at hj
  obtain ⟨hlt, -⟩ := hj
  rw [List.length_reverse] at hlt
  omega

theorem lt_of_slot {t : Tables} {name : String} {i : Nat} (h : t.slot name = .ok i) :
    i < t.slots.length := by
  rw [slot] at h
  split at h
  · rename_i j hj
    cases h
    exact lt_of_lastIndex? hj
  · cases h

theorem lt_of_subroutine {t : Tables} {name : String} {i : Nat} (h : t.subroutine name = .ok i) :
    i < t.subroutines.length := by
  rw [subroutine] at h
  split at h
  · rename_i j hj
    cases h
    rw [List.idxOf?, List.findIdx?_eq_some_iff_getElem] at hj
    exact hj.1
  · cases h

variable {h : Host} {t t' : Tables}

theorem checkReturns_eq_ok_iff {type method : String} {u : Unit} :
    checkReturns h type method = .ok u ↔
      ∃ m, h.registry.method? type method = some m ∧ m.returnsValue := by
  rw [checkReturns, bind_eq_ok_iff]
  simp only [Host.method_eq_ok_iff]
  refine exists_congr fun m ↦ and_congr_right fun _ ↦ ?_
  split <;> simp_all

theorem prepareCall_eq_ok_iff {type method : String} {given : Nat} :
    t.prepareCall h type method given = .ok t' ↔
      ∃ m, h.registry.method? type method = some m ∧ m.paramCount = given ∧
        (t.addCapability m.source m.signature).2 = t' := by
  rw [prepareCall, bind_eq_ok_iff]
  simp only [Host.method_eq_ok_iff]
  refine exists_congr fun m ↦ and_congr_right fun _ ↦ ?_
  split <;> simp_all

/-! ## What is walked is admitted -/

mutual

theorem admitsExpr_of_prepareExpr {t t' : Tables} {e : Expr} (hp : t.prepareExpr h e = .ok t') :
    h.registry.AdmitsExpr e := by
  match e with
  | .number _ => trivial
  | .text _ => trivial
  | .variable _ => trivial
  | .index array indices =>
    rw [prepareExpr] at hp
    exact admitsExprs_of_prepareExprs hp
  | .property type name =>
    simp only [prepareExpr, bind_eq_ok_iff, Host.getter_eq_ok_iff] at hp
    obtain ⟨source, ⟨p, hp, hg⟩, -⟩ := hp
    exact ⟨p, hp, by rw [hg, Option.isSome_some]⟩
  | .call type method args =>
    simp only [prepareExpr, bind_eq_ok_iff, checkReturns_eq_ok_iff, prepareCall_eq_ok_iff] at hp
    obtain ⟨-, ⟨m, hm, hv⟩, t₁, ⟨m', hm', hc, -⟩, hargs⟩ := hp
    obtain rfl : m = m' := Option.some.inj (hm.symm.trans hm')
    exact ⟨⟨m, hm, hc, fun _ ↦ hv⟩, admitsExprs_of_prepareExprs hargs⟩
  | .binary op left right =>
    simp only [prepareExpr, bind_eq_ok_iff] at hp
    obtain ⟨t₁, hl, hr⟩ := hp
    exact ⟨admitsExpr_of_prepareExpr hl, admitsExpr_of_prepareExpr hr⟩
  | .negate operand =>
    rw [prepareExpr] at hp
    exact admitsExpr_of_prepareExpr (e := operand) hp

theorem admitsExprs_of_prepareExprs {t t' : Tables} {es : List Expr}
    (hp : t.prepareExprs h es = .ok t') : h.registry.AdmitsExprs es := by
  match es with
  | [] => trivial
  | e :: rest =>
    simp only [prepareExprs, bind_eq_ok_iff] at hp
    obtain ⟨t₁, he, hrest⟩ := hp
    exact ⟨admitsExpr_of_prepareExpr he, admitsExprs_of_prepareExprs hrest⟩

end

theorem admitsAssign_of_prepareAssign {value : Expr} {target : Target}
    (hp : t.prepareAssign h value target = .ok t') : h.registry.AdmitsAssign value target := by
  match target with
  | .variable name => exact admitsExpr_of_prepareExpr hp
  | .index array indices =>
    simp only [prepareAssign, bind_eq_ok_iff] at hp
    obtain ⟨t₁, hi, hv⟩ := hp
    exact ⟨admitsExprs_of_prepareExprs hi, admitsExpr_of_prepareExpr hv⟩
  | .property type name =>
    simp only [prepareAssign, bind_eq_ok_iff, Host.setter_eq_ok_iff] at hp
    obtain ⟨source, ⟨p, hp, hs⟩, hv⟩ := hp
    exact ⟨⟨p, hp, by rw [hs, Option.isSome_some]⟩, admitsExpr_of_prepareExpr hv⟩
  | .event type name =>
    simp only [prepareAssign, bind_eq_ok_iff, Host.event_eq_ok_iff] at hp
    obtain ⟨e, he, -⟩ := hp
    exact ⟨e, he⟩

mutual

theorem admitsStmt_of_prepareStmt {t t' : Tables} {p : Place} {s : Stmt}
    (hp : t.prepareStmt h p s = .ok t') : h.registry.AdmitsStmt p.kind s := by
  match s with
  | .assign target value span =>
    rw [prepareStmt] at hp
    exact admitsAssign_of_prepareAssign hp
  | .call type method args span =>
    simp only [prepareStmt, bind_eq_ok_iff, prepareCall_eq_ok_iff] at hp
    obtain ⟨t₁, ⟨m, hm, hc, -⟩, hargs⟩ := hp
    exact ⟨⟨m, hm, hc, nofun⟩, admitsExprs_of_prepareExprs hargs⟩
  | .cond condition body arms otherwise span =>
    simp only [prepareStmt, bind_eq_ok_iff] at hp
    obtain ⟨t₁, hc, t₂, hb, t₃, ha, ho⟩ := hp
    exact ⟨admitsExpr_of_prepareExpr hc, p.kind_inner ▸ admitsStmts_of_prepareStmts hb,
      admitsArms_of_prepareArms p.kind_inner ha, p.kind_inner ▸ admitsStmts_of_prepareStmts ho⟩
  | .while condition body span =>
    simp only [prepareStmt, bind_eq_ok_iff] at hp
    obtain ⟨t₁, hc, hb⟩ := hp
    exact ⟨admitsExpr_of_prepareExpr hc, p.kind_inner ▸ admitsStmts_of_prepareStmts hb⟩
  | .for name start stop step body span =>
    simp only [prepareStmt, bind_eq_ok_iff] at hp
    obtain ⟨t₁, hs, t₂, he, t₃, hst, hb⟩ := hp
    exact ⟨admitsExpr_of_prepareExpr hs, admitsExpr_of_prepareExpr he,
      admitsExprs_of_prepareExprs hst, p.kind_inner ▸ admitsStmts_of_prepareStmts hb⟩
  | .label name span =>
    rw [prepareStmt] at hp
    split at hp
    · simp at hp
    · rename_i hn
      exact fun hk ↦ hn (Place.kind_eq_block_iff.mp hk)
  | .sub name body span =>
    rw [prepareStmt] at hp
    split at hp
    · simp at hp
    · rename_i hn
      simp only [bind_eq_ok_iff] at hp
      obtain ⟨⟨index, t₁⟩, -, hb⟩ := hp
      rw [Registry.AdmitsStmt, Place.kind_eq_entry_iff]
      simp only [Bool.or_eq_true, decide_eq_true_eq, not_or, ne_eq, Decidable.not_not] at hn
      exact ⟨hn.symm, admitsStmts_of_prepareStmts hb⟩
  | .goto .. => trivial
  | .callSub .. => trivial
  | .empty .. => trivial

theorem admitsStmts_of_prepareStmts {t t' : Tables} {p : Place} {body : List Stmt}
    (hp : t.prepareStmts h p body = .ok t') : h.registry.AdmitsStmts p.kind body := by
  match body with
  | [] => trivial
  | s :: rest =>
    simp only [prepareStmts, bind_eq_ok_iff] at hp
    obtain ⟨t₁, hs, hrest⟩ := hp
    exact ⟨admitsStmt_of_prepareStmt hs, admitsStmts_of_prepareStmts hrest⟩

theorem admitsArms_of_prepareArms {t t' : Tables} {p : Place} {arms : List Arm}
    (hk : p.kind = .block) (hp : t.prepareArms h p arms = .ok t') :
    h.registry.AdmitsArms arms := by
  match arms with
  | [] => trivial
  | .mk condition body :: rest =>
    simp only [prepareArms, bind_eq_ok_iff] at hp
    obtain ⟨t₁, hc, t₂, hb, hrest⟩ := hp
    exact ⟨admitsExpr_of_prepareExpr hc, hk ▸ admitsStmts_of_prepareStmts hb,
      admitsArms_of_prepareArms hk hrest⟩

end

/-! ## The walk meets the demands -/

/-- Tables together with the routine that is being walked. -/
def within (routine : Routine) (t : Tables) : Tables × Routine := (t, routine)

/-- Steps of the walk one after the other meet their demands one after the other. -/
theorem meetAll_append_eq {routine : Routine} {t : Tables} {ds ds' : List Demand}
    {x : Except EmitError Tables} {f : Tables → Except EmitError Tables}
    (hx : meetAll (t, routine) ds = within routine <$> x)
    (hf : ∀ t, meetAll (t, routine) ds' = within routine <$> f t) :
    meetAll (t, routine) (ds ++ ds') = within routine <$> (x >>= f) := by
  rw [meetAll_append, hx]
  cases x with
  | error e => rfl
  | ok t => exact hf t

theorem meetAll_text (routine : Routine) (t : Tables) (text : String) :
    meetAll (t, routine) [.text text] =
      within routine <$> (t.addText text >>= fun r ↦ pure r.2) := by
  rw [meetAll_cons, meet]
  cases t.addText text <;> rfl

theorem meetAll_callDemands {type method : String} {given : Nat} {needsValue : Bool}
    (ha : h.registry.AdmitsCall type method given needsValue) (t : Tables) (routine : Routine) :
    meetAll (t, routine) (h.registry.callDemands type method) =
      within routine <$> t.prepareCall h type method given := by
  obtain ⟨m, hm, hc, -⟩ := ha
  rw [Registry.callDemands, hm, prepareCall_eq_ok_iff.mpr ⟨m, hm, hc, rfl⟩]
  rfl

mutual

theorem meetAll_exprDemands {e : Expr} (ha : h.registry.AdmitsExpr e) (t : Tables)
    (routine : Routine) :
    meetAll (t, routine) (h.registry.exprDemands e) = within routine <$> t.prepareExpr h e := by
  match e with
  | .number _ => rfl
  | .variable _ => rfl
  | .text text => exact meetAll_text routine t text
  | .index array indices =>
    rw [Registry.exprDemands, prepareExpr, meetAll_exprsDemands ha]
  | .property type name =>
    obtain ⟨p, hp, hg⟩ := ha
    obtain ⟨source, hs⟩ := Option.isSome_iff_exists.mp hg
    rw [Registry.exprDemands, prepareExpr, Registry.getterDemands, hp, Option.bind_some, hs,
      Host.getter_eq_ok_iff.mpr ⟨p, hp, hs⟩]
    rfl
  | .call type method args =>
    have hv : checkReturns h type method = .ok () := by
      obtain ⟨⟨m, hm, -, hv⟩, -⟩ := ha
      exact checkReturns_eq_ok_iff.mpr ⟨m, hm, hv rfl⟩
    rw [Registry.exprDemands, prepareExpr, hv, ok_bind]
    exact meetAll_append_eq (meetAll_callDemands ha.1 t routine)
      fun t ↦ meetAll_exprsDemands ha.2 t routine
  | .binary op left right =>
    rw [Registry.exprDemands, prepareExpr]
    exact meetAll_append_eq (meetAll_exprDemands ha.1 t routine)
      fun t ↦ meetAll_exprDemands ha.2 t routine
  | .negate operand =>
    rw [Registry.exprDemands, prepareExpr, meetAll_exprDemands (e := operand) ha]

theorem meetAll_exprsDemands {es : List Expr} (ha : h.registry.AdmitsExprs es) (t : Tables)
    (routine : Routine) :
    meetAll (t, routine) (h.registry.exprsDemands es) = within routine <$> t.prepareExprs h es := by
  match es with
  | [] => rfl
  | e :: rest =>
    rw [Registry.exprsDemands, prepareExprs]
    exact meetAll_append_eq (meetAll_exprDemands ha.1 t routine)
      fun t ↦ meetAll_exprsDemands ha.2 t routine

end

theorem meetAll_assignDemands {value : Expr} {target : Target}
    (ha : h.registry.AdmitsAssign value target) (t : Tables) (routine : Routine) :
    meetAll (t, routine) (h.registry.assignDemands value target) =
      within routine <$> t.prepareAssign h value target := by
  match target with
  | .variable name => exact meetAll_exprDemands ha t routine
  | .index array indices =>
    exact meetAll_append_eq (meetAll_exprsDemands ha.1 t routine)
      fun t ↦ meetAll_exprDemands ha.2 t routine
  | .property type name =>
    obtain ⟨⟨p, hp, hg⟩, hv⟩ := ha
    obtain ⟨source, hs⟩ := Option.isSome_iff_exists.mp hg
    rw [Registry.assignDemands, prepareAssign, Registry.setterDemands, hp, Option.bind_some, hs,
      Host.setter_eq_ok_iff.mpr ⟨p, hp, hs⟩, ok_bind]
    exact meetAll_exprDemands hv _ routine
  | .event type name =>
    obtain ⟨e, he⟩ := ha
    rw [Registry.assignDemands, prepareAssign, Registry.eventDemands, he,
      Host.event_eq_ok_iff.mpr he]
    rfl

mutual

theorem meetAll_stmtDemands {p : Place} {s : Stmt} (ha : h.registry.AdmitsStmt p.kind s)
    (t : Tables) :
    meetAll (t, p.routine) (h.registry.stmtDemands s) =
      within p.routine <$> t.prepareStmt h p s := by
  match s with
  | .assign target value span =>
    rw [Registry.stmtDemands, prepareStmt]
    exact meetAll_assignDemands ha t p.routine
  | .call type method args span =>
    rw [Registry.stmtDemands, prepareStmt]
    exact meetAll_append_eq (meetAll_callDemands ha.1 t p.routine)
      fun t ↦ meetAll_exprsDemands ha.2 t p.routine
  | .cond condition body arms otherwise span =>
    rw [Registry.stmtDemands, prepareStmt, List.append_assoc, List.append_assoc]
    exact meetAll_append_eq (meetAll_exprDemands ha.1 t p.routine) fun t ↦
      meetAll_append_eq (meetAll_stmtsDemands (p := p.inner) (p.kind_inner ▸ ha.2.1) t) fun t ↦
      meetAll_append_eq (meetAll_armsDemands p.kind_inner ha.2.2.1 t) fun t ↦
      meetAll_stmtsDemands (p := p.inner) (p.kind_inner ▸ ha.2.2.2) t
  | .while condition body span =>
    rw [Registry.stmtDemands, prepareStmt]
    exact meetAll_append_eq (meetAll_exprDemands ha.1 t p.routine) fun t ↦
      meetAll_stmtsDemands (p := p.inner) (p.kind_inner ▸ ha.2) t
  | .for name start stop step body span =>
    rw [Registry.stmtDemands, prepareStmt, List.append_assoc, List.append_assoc]
    exact meetAll_append_eq (meetAll_exprDemands ha.1 t p.routine) fun t ↦
      meetAll_append_eq (meetAll_exprDemands ha.2.1 t p.routine) fun t ↦
      meetAll_append_eq (meetAll_exprsDemands ha.2.2.1 t p.routine) fun t ↦
      meetAll_stmtsDemands (p := p.inner) (p.kind_inner ▸ ha.2.2.2) t
  | .label name span =>
    rw [Registry.AdmitsStmt, ne_eq, Place.kind_eq_block_iff] at ha
    rw [Registry.stmtDemands, prepareStmt, if_neg ha, meetAll_cons, meet]
    cases t.declareLabel p.routine name <;> rfl
  | .sub name body span =>
    rw [Registry.AdmitsStmt, Place.kind_eq_entry_iff] at ha
    obtain ⟨⟨hr, hn⟩, hb⟩ := ha
    rw [Registry.stmtDemands, prepareStmt, if_neg (by simp [hr, hn]), List.cons_append,
      meetAll_cons, meet]
    cases t.declareSubroutine name with
    | error e => rfl
    | ok d =>
      obtain ⟨index, t⟩ := d
      have hbody := meetAll_stmtsDemands (p := .top (.subroutine index)) hb t
      simp only [ok_bind, pure_bind, meetAll_append, Place.top] at hbody ⊢
      rw [hbody, hr]
      cases t.prepareStmts h ⟨.subroutine index, 0⟩ body <;> rfl
  | .goto .. => rfl
  | .callSub .. => rfl
  | .empty .. => rfl

theorem meetAll_stmtsDemands {p : Place} {body : List Stmt}
    (ha : h.registry.AdmitsStmts p.kind body) (t : Tables) :
    meetAll (t, p.routine) (h.registry.stmtsDemands body) =
      within p.routine <$> t.prepareStmts h p body := by
  match body with
  | [] => rfl
  | s :: rest =>
    rw [Registry.stmtsDemands, prepareStmts]
    exact meetAll_append_eq (meetAll_stmtDemands ha.1 t) fun t ↦ meetAll_stmtsDemands ha.2 t

theorem meetAll_armsDemands {p : Place} {arms : List Arm} (hk : p.kind = .block)
    (ha : h.registry.AdmitsArms arms) (t : Tables) :
    meetAll (t, p.routine) (h.registry.armsDemands arms) =
      within p.routine <$> t.prepareArms h p arms := by
  match arms with
  | [] => rfl
  | .mk condition body :: rest =>
    rw [Registry.armsDemands, prepareArms, List.append_assoc]
    exact meetAll_append_eq (meetAll_exprDemands ha.1 t p.routine) fun t ↦
      meetAll_append_eq (meetAll_stmtsDemands (hk ▸ ha.2.1) t) fun t ↦
      meetAll_armsDemands hk ha.2.2 t

end

/-- The first walk succeeds exactly if everything is admitted and every demand can be met. -/
theorem prepareStmts_eq_ok_iff {p : Place} {body : List Stmt} :
    t.prepareStmts h p body = .ok t' ↔ h.registry.AdmitsStmts p.kind body ∧
      meetAll (t, p.routine) (h.registry.stmtsDemands body) = .ok (t', p.routine) := by
  constructor
  · intro hp
    have ha := admitsStmts_of_prepareStmts hp
    exact ⟨ha, by rw [meetAll_stmtsDemands ha, hp]; rfl⟩
  · rintro ⟨ha, hm⟩
    rw [meetAll_stmtsDemands ha, map_eq_ok_iff] at hm
    obtain ⟨t₁, hp, heq⟩ := hm
    rw [hp, (Prod.mk.inj heq).1]

end Tables

end ScriptWasm
