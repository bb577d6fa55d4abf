import ScriptWasm.Proofs.Emission.Demand

/-!
# The parts of a program

The statements of a program and the expressions that they evaluate, nested ones included. What holds
of a whole program with respect to library members holds of all its parts: they are admitted, and
demand nothing that the program does not demand.
-/

namespace ScriptWasm

/-! ## Expressions -/

mutual

/-- An expression, and the expressions inside it. -/
def Expr.parts : Expr → List Expr
  | .index array indices => .index array indices :: exprsParts indices
  | .call type method args => .call type method args :: exprsParts args
  | .binary op left right => .binary op left right :: (left.parts ++ right.parts)
  | .negate operand => .negate operand :: operand.parts
  | .number x => [.number x]
  | .text text => [.text text]
  | .variable name => [.variable name]
  | .property type name => [.property type name]

def exprsParts : List Expr → List Expr
  | [] => []
  | e :: rest => e.parts ++ exprsParts rest

end

/-- The expressions that an assignment evaluates. The handler of an event is named, and not
evaluated. -/
def Target.evaluated (value : Expr) : Target → List Expr
  | .variable _ => [value]
  | .index _ indices => indices ++ [value]
  | .property _ _ => [value]
  | .event _ _ => []

/-- The expressions that a statement evaluates itself. -/
def Stmt.evaluated : Stmt → List Expr
  | .assign target value _ => target.evaluated value
  | .call _ _ args _ => args
  | .cond condition _ arms _ _ => condition :: arms.map Arm.condition
  | .while condition _ _ => [condition]
  | .for _ start stop step _ _ => start :: stop :: step.toList
  | _ => []

/-! ## Statements -/

mutual

/-- A statement, and the statements inside it. -/
def Stmt.parts : Stmt → List Stmt
  | .cond condition body arms otherwise span =>
    .cond condition body arms otherwise span ::
      (stmtsParts body ++ armsParts arms ++ stmtsParts otherwise)
  | .while condition body span => .while condition body span :: stmtsParts body
  | .for name start stop step body span => .for name start stop step body span :: stmtsParts body
  | .sub name body span => .sub name body span :: stmtsParts body
  | .assign target value span => [.assign target value span]
  | .call type method args span => [.call type method args span]
  | .goto name span => [.goto name span]
  | .label name span => [.label name span]
  | .callSub name span => [.callSub name span]
  | .empty span => [.empty span]

def stmtsParts : List Stmt → List Stmt
  | [] => []
  | s :: rest => s.parts ++ stmtsParts rest

def armsParts : List Arm → List Stmt
  | [] => []
  | .mk _ body :: rest => stmtsParts body ++ armsParts rest

end

/-- The statements of a program. -/
def Program.statements (p : Program) : List Stmt := stmtsParts p.body

/-- The expressions of a program. -/
def Program.expressions (p : Program) : List Expr :=
  p.statements.flatMap fun s ↦ exprsParts s.evaluated

/-! ## What is covered -/

namespace Registry

variable (r : Registry) (ds : List Demand)

/-- An expression is admitted, and demands nothing else than what is given. -/
structure CoversExpr (e : Expr) : Prop where
  admitted : r.AdmitsExpr e
  demanded : r.exprDemands e ⊆ ds

structure CoversExprs (es : List Expr) : Prop where
  admitted : r.AdmitsExprs es
  demanded : r.exprsDemands es ⊆ ds

/-- A statement is admitted somewhere, and demands nothing else than what is given. -/
structure CoversStmt (s : Stmt) : Prop where
  admitted : ∃ kind, r.AdmitsStmt kind s
  demanded : r.stmtDemands s ⊆ ds

structure CoversStmts (body : List Stmt) : Prop where
  admitted : ∃ kind, r.AdmitsStmts kind body
  demanded : r.stmtsDemands body ⊆ ds

structure CoversArms (arms : List Arm) : Prop where
  admitted : r.AdmitsArms arms
  demanded : r.armsDemands arms ⊆ ds

variable {r ds}

theorem coversExprs_cons_iff {e : Expr} {es : List Expr} :
    r.CoversExprs ds (e :: es) ↔ r.CoversExpr ds e ∧ r.CoversExprs ds es := by
  constructor
  · rintro ⟨⟨ha, has⟩, hd⟩
    rw [exprsDemands, List.append_subset] at hd
    exact ⟨⟨ha, hd.1⟩, ⟨has, hd.2⟩⟩
  · rintro ⟨⟨ha, hd⟩, ⟨has, hds⟩⟩
    exact ⟨⟨ha, has⟩, List.append_subset.mpr ⟨hd, hds⟩⟩

mutual

theorem CoversExpr.part {e e' : Expr} (he : r.CoversExpr ds e) (hpart : e' ∈ e.parts) :
    r.CoversExpr ds e' := by
  match e with
  | .index array indices =>
    obtain rfl | hpart := List.mem_cons.mp hpart
    · exact he
    · exact CoversExprs.part ⟨he.1, he.2⟩ hpart
  | .call type method args =>
    obtain rfl | hpart := List.mem_cons.mp hpart
    · exact he
    · exact CoversExprs.part ⟨he.1.2, (List.append_subset.mp he.2).2⟩ hpart
  | .binary op left right =>
    obtain ⟨hleft, hright⟩ := List.append_subset.mp he.2
    obtain rfl | hpart := List.mem_cons.mp hpart
    · exact he
    · obtain hpart | hpart := List.mem_append.mp hpart
      · exact CoversExpr.part ⟨he.1.1, hleft⟩ hpart
      · exact CoversExpr.part ⟨he.1.2, hright⟩ hpart
  | .negate operand =>
    obtain rfl | hpart := List.mem_cons.mp hpart
    · exact he
    · exact CoversExpr.part (e := operand) ⟨he.1, he.2⟩ hpart
  | .number _ | .text _ | .variable _ | .property _ _ =>
    obtain rfl := List.mem_singleton.mp hpart
    exact he

theorem CoversExprs.part {es : List Expr} {e' : Expr} (hes : r.CoversExprs ds es)
    (hpart : e' ∈ exprsParts es) : r.CoversExpr ds e' := by
  match es with
  | e :: rest =>
    obtain ⟨he, hrest⟩ := coversExprs_cons_iff.mp hes
    obtain hpart | hpart := List.mem_append.mp hpart
    · exact CoversExpr.part he hpart
    · exact CoversExprs.part hrest hpart

end

/-! ### What is inside of a statement -/

theorem CoversStmts.cons {s : Stmt} {rest : List Stmt} (h : r.CoversStmts ds (s :: rest)) :
    r.CoversStmt ds s ∧ r.CoversStmts ds rest := by
  obtain ⟨⟨kind, hs, hrest⟩, hd⟩ := h
  rw [stmtsDemands, List.append_subset] at hd
  exact ⟨⟨⟨kind, hs⟩, hd.1⟩, ⟨⟨kind, hrest⟩, hd.2⟩⟩

theorem CoversArms.cons {condition : Expr} {body : List Stmt} {rest : List Arm}
    (h : r.CoversArms ds (.mk condition body :: rest)) :
    r.CoversExpr ds condition ∧ r.CoversStmts ds body ∧ r.CoversArms ds rest := by
  obtain ⟨⟨hcondition, hbody, hrest⟩, hd⟩ := h
  simp only [armsDemands, List.append_subset] at hd
  exact ⟨⟨hcondition, hd.1.1⟩, ⟨⟨_, hbody⟩, hd.1.2⟩, ⟨hrest, hd.2⟩⟩

theorem CoversStmt.cond {condition : Expr} {body otherwise : List Stmt} {arms : List Arm}
    {span : Span} (h : r.CoversStmt ds (.cond condition body arms otherwise span)) :
    r.CoversExpr ds condition ∧ r.CoversStmts ds body ∧ r.CoversArms ds arms ∧
      r.CoversStmts ds otherwise := by
  obtain ⟨⟨kind, hcondition, hbody, harms, hotherwise⟩, hd⟩ := h
  simp only [stmtDemands, List.append_subset] at hd
  exact ⟨⟨hcondition, hd.1.1.1⟩, ⟨⟨_, hbody⟩, hd.1.1.2⟩, ⟨harms, hd.1.2⟩, ⟨⟨_, hotherwise⟩, hd.2⟩⟩

theorem CoversStmt.while {condition : Expr} {body : List Stmt} {span : Span}
    (h : r.CoversStmt ds (.while condition body span)) :
    r.CoversExpr ds condition ∧ r.CoversStmts ds body := by
  obtain ⟨⟨kind, hcondition, hbody⟩, hd⟩ := h
  rw [stmtDemands, List.append_subset] at hd
  exact ⟨⟨hcondition, hd.1⟩, ⟨⟨_, hbody⟩, hd.2⟩⟩

theorem CoversStmt.for {name : String} {start stop : Expr} {step : Option Expr}
    {body : List Stmt} {span : Span}
    (h : r.CoversStmt ds (.for name start stop step body span)) :
    r.CoversExpr ds start ∧ r.CoversExpr ds stop ∧ r.CoversExprs ds step.toList ∧
      r.CoversStmts ds body := by
  obtain ⟨⟨kind, hstart, hstop, hstep, hbody⟩, hd⟩ := h
  simp only [stmtDemands, List.append_subset] at hd
  exact ⟨⟨hstart, hd.1.1.1⟩, ⟨hstop, hd.1.1.2⟩, ⟨hstep, hd.1.2⟩, ⟨⟨_, hbody⟩, hd.2⟩⟩

theorem CoversStmt.sub {name : String} {body : List Stmt} {span : Span}
    (h : r.CoversStmt ds (.sub name body span)) : r.CoversStmts ds body := by
  obtain ⟨⟨kind, -, hbody⟩, hd⟩ := h
  exact ⟨⟨_, hbody⟩, fun d hmem ↦ hd (by simp [stmtDemands, hmem])⟩

mutual

theorem CoversStmt.part {s s' : Stmt} (hs : r.CoversStmt ds s) (hpart : s' ∈ s.parts) :
    r.CoversStmt ds s' := by
  match s with
  | .cond condition body arms otherwise span =>
    obtain rfl | hpart := List.mem_cons.mp hpart
    · exact hs
    · obtain ⟨-, hbody, harms, hotherwise⟩ := hs.cond
      simp only [List.mem_append] at hpart
      obtain (hpart | hpart) | hpart := hpart
      · exact CoversStmts.part hbody hpart
      · exact CoversArms.part harms hpart
      · exact CoversStmts.part hotherwise hpart
  | .while condition body span =>
    obtain rfl | hpart := List.mem_cons.mp hpart
    · exact hs
    · exact CoversStmts.part hs.while.2 hpart
  | .for name start stop step body span =>
    obtain rfl | hpart := List.mem_cons.mp hpart
    · exact hs
    · exact CoversStmts.part hs.for.2.2.2 hpart
  | .sub name body span =>
    obtain rfl | hpart := List.mem_cons.mp hpart
    · exact hs
    · exact CoversStmts.part hs.sub hpart
  | .assign .. | .call .. | .goto .. | .label .. | .callSub .. | .empty .. =>
    obtain rfl := List.mem_singleton.mp hpart
    exact hs

theorem CoversStmts.part {body : List Stmt} {s' : Stmt} (hbody : r.CoversStmts ds body)
    (hpart : s' ∈ stmtsParts body) : r.CoversStmt ds s' := by
  match body with
  | s :: rest =>
    obtain ⟨hs, hrest⟩ := hbody.cons
    obtain hpart | hpart := List.mem_append.mp hpart
    · exact CoversStmt.part hs hpart
    · exact CoversStmts.part hrest hpart

theorem CoversArms.part {arms : List Arm} {s' : Stmt} (harms : r.CoversArms ds arms)
    (hpart : s' ∈ armsParts arms) : r.CoversStmt ds s' := by
  match arms with
  | .mk condition body :: rest =>
    obtain ⟨-, hbody, hrest⟩ := harms.cons
    obtain hpart | hpart := List.mem_append.mp hpart
    · exact CoversStmts.part hbody hpart
    · exact CoversArms.part hrest hpart

end

/-! ### The expressions of a statement -/

theorem coversExprs_nil : r.CoversExprs ds [] := ⟨trivial, List.nil_subset ds⟩

theorem CoversExpr.singleton {e : Expr} (he : r.CoversExpr ds e) : r.CoversExprs ds [e] :=
  coversExprs_cons_iff.mpr ⟨he, coversExprs_nil⟩

theorem CoversExprs.append {es es' : List Expr} (hes : r.CoversExprs ds es)
    (hes' : r.CoversExprs ds es') : r.CoversExprs ds (es ++ es') := by
  induction es with
  | nil => exact hes'
  | cons e rest ih =>
    obtain ⟨he, hrest⟩ := coversExprs_cons_iff.mp hes
    exact coversExprs_cons_iff.mpr ⟨he, ih hrest⟩

theorem CoversArms.conditions {arms : List Arm} (harms : r.CoversArms ds arms) :
    r.CoversExprs ds (arms.map Arm.condition) := by
  induction arms with
  | nil => exact coversExprs_nil
  | cons arm rest ih =>
    obtain ⟨condition, body⟩ := arm
    obtain ⟨hcondition, -, hrest⟩ := harms.cons
    exact coversExprs_cons_iff.mpr ⟨hcondition, ih hrest⟩

/-- The expressions of a statement are covered with it. -/
theorem CoversStmt.evaluated {s : Stmt} (hs : r.CoversStmt ds s) :
    r.CoversExprs ds s.evaluated := by
  match s with
  | .assign (.variable _) value _ =>
    obtain ⟨⟨kind, ha⟩, hd⟩ := hs
    exact CoversExpr.singleton ⟨ha, hd⟩
  | .assign (.index _ indices) value _ =>
    obtain ⟨⟨kind, hindices, hvalue⟩, hd⟩ := hs
    obtain ⟨hdi, hdv⟩ := List.append_subset.mp hd
    exact CoversExprs.append ⟨hindices, hdi⟩ (CoversExpr.singleton ⟨hvalue, hdv⟩)
  | .assign (.property _ _) value _ =>
    obtain ⟨⟨kind, -, hvalue⟩, hd⟩ := hs
    exact CoversExpr.singleton ⟨hvalue, (List.append_subset.mp hd).2⟩
  | .call _ _ args _ =>
    obtain ⟨⟨kind, -, hargs⟩, hd⟩ := hs
    exact ⟨hargs, (List.append_subset.mp hd).2⟩
  | .cond condition body arms otherwise _ =>
    obtain ⟨hcondition, -, harms, -⟩ := hs.cond
    exact coversExprs_cons_iff.mpr ⟨hcondition, harms.conditions⟩
  | .while condition _ _ => exact hs.while.1.singleton
  | .for _ start stop step body _ =>
    obtain ⟨hstart, hstop, hstep, -⟩ := hs.for
    exact coversExprs_cons_iff.mpr ⟨hstart, coversExprs_cons_iff.mpr ⟨hstop, hstep⟩⟩
  | .assign (.event _ _) _ _ | .goto .. | .label .. | .sub .. | .callSub .. | .empty .. =>
    exact coversExprs_nil

end Registry

namespace Program

variable {r : Registry} {p : Program}

theorem coversStmt_of_mem_statements (ha : r.AdmitsStmts .entry p.body) {s : Stmt}
    (hs : s ∈ p.statements) : r.CoversStmt (r.stmtsDemands p.body) s :=
  Registry.CoversStmts.part ⟨⟨_, ha⟩, List.Subset.refl _⟩ hs

theorem coversExpr_of_mem_expressions (ha : r.AdmitsStmts .entry p.body) {e : Expr}
    (he : e ∈ p.expressions) : r.CoversExpr (r.stmtsDemands p.body) e := by
  obtain ⟨s, hs, he⟩ := List.mem_flatMap.mp he
  exact (coversStmt_of_mem_statements ha hs).evaluated.part he

end Program

end ScriptWasm
