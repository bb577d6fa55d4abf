import ScriptWasm.Proofs.Analysis.Order
import ScriptWasm.Proofs.Emission.Slots
import ScriptWasm.Proofs.Program.Parts

/-!
# Variables that are collected

The variables of a program that declares none are the names that it assigns. They are collected on
one walk over the tree, and a name that is met again is passed over. So the table lists the names in
the order in which a plain walk, which visits a statement before what is inside of it, meets them
for the first time.

The checker goes over the same tree by another way, and looks up variables wherever they are
assigned or read. What is assigned is in the table, so only a name that is read can be missing, and
only if it is assigned nowhere.
-/

namespace ScriptWasm

/-! ## Names that are assigned and names that are read -/

/-- The variable that an assignment stores into, or the array. -/
def Target.assigned? : Target → Option String
  | .variable name => some name
  | .index array _ => some array
  | .property _ _ => none
  | .event _ _ => none

/-- The variable that a statement itself assigns. -/
def Stmt.assigned? : Stmt → Option String
  | .assign target _ _ => target.assigned?
  | .for name _ _ _ _ _ => some name
  | _ => none

/-- The variable that an expression itself reads, or the array. -/
def Expr.read? : Expr → Option String
  | .variable name => some name
  | .index array _ => some array
  | _ => none

/-- The names that the statements of a body assign, each as often as it is assigned, in the order of
a walk that visits a statement before the statements inside of it. -/
def assignedNames (body : List Stmt) : List String := (stmtsParts body).filterMap Stmt.assigned?

/-- The names that expressions read. -/
def exprReads (es : List Expr) : List String := (exprsParts es).filterMap Expr.read?

/-- The names that the statements of a body read. -/
def readNames (body : List Stmt) : List String :=
  (stmtsParts body).flatMap fun s ↦ exprReads s.evaluated

/-- A statement itself assigns a variable or reads it. -/
def Stmt.Uses (s : Stmt) (name : String) : Prop :=
  s.assigned? = some name ∨ name ∈ exprReads s.evaluated

theorem exprReads_cons (e : Expr) (es : List Expr) :
    exprReads (e :: es) = e.parts.filterMap Expr.read? ++ exprReads es := List.filterMap_append

theorem exprReads_append (es es' : List Expr) :
    exprReads (es ++ es') = exprReads es ++ exprReads es' := by
  induction es with
  | nil => rfl
  | cons e es ih => rw [List.cons_append, exprReads_cons, exprReads_cons, ih, List.append_assoc]

/-! ## First occurrences -/

/-- The names are those of a walk without repetitions, in the order in which they occur first. -/
structure ListsFirst (walk names : List String) : Prop where
  nodup : names.Nodup
  mem_iff : ∀ {name}, name ∈ names ↔ name ∈ walk
  ordered : names.Pairwise fun a b ↦ walk.idxOf a < walk.idxOf b

namespace SymbolTable

theorem names_declare (t : SymbolTable) (name : String) :
    (t.declare name).names = if name ∈ t.names then t.names else t.names ++ [name] := by
  simp only [declare, contains, List.contains_iff_mem]
  split <;> rfl

/-- A name more on the walk is declared, or passed over. -/
theorem listsFirst_declare {walk : List String} {t : SymbolTable} (h : ListsFirst walk t.names)
    (name : String) : ListsFirst (walk ++ [name]) (t.declare name).names := by
  have hearlier {a : String} (ha : a ∈ t.names) : (walk ++ [name]).idxOf a = walk.idxOf a :=
    List.idxOf_append_of_mem (h.mem_iff.mp ha)
  have hordered : t.names.Pairwise fun a b ↦
      (walk ++ [name]).idxOf a < (walk ++ [name]).idxOf b := by
    refine h.ordered.imp_of_mem fun {a b} ha hb hab ↦ ?_
    rwa [hearlier ha, hearlier hb]
  refine ⟨nodup_declare_iff.mpr h.nodup, fun {a} ↦ ?_, ?_⟩
  · rw [names_declare]
    split
    · rename_i hname
      rw [h.mem_iff, List.mem_append, List.mem_singleton]
      exact ⟨.inl, fun ha ↦ ha.elim id fun ha ↦ ha ▸ h.mem_iff.mp hname⟩
    · rw [List.mem_append, List.mem_append, h.mem_iff]
  · rw [names_declare]
    split
    · exact hordered
    · rename_i hname
      refine List.pairwise_append.mpr ⟨hordered, List.pairwise_singleton _ _, fun a ha b hb ↦ ?_⟩
      -- The new name has not been on the walk, so it occurs behind everything else.
      rw [List.mem_singleton.mp hb, hearlier ha,
        List.idxOf_append_of_notMem (mt h.mem_iff.mpr hname)]
      exact Nat.lt_of_lt_of_le (List.idxOf_lt_length_of_mem (h.mem_iff.mp ha))
        (Nat.le_add_right _ _)

/-- Names that are declared one after the other. -/
theorem listsFirst_foldl (more : List String) {walk : List String} {t : SymbolTable}
    (h : ListsFirst walk t.names) : ListsFirst (walk ++ more) (more.foldl declare t).names := by
  induction more generalizing walk t with
  | nil => rwa [List.append_nil]
  | cons name more ih =>
    rw [← List.singleton_append, ← List.append_assoc]
    exact ih (listsFirst_declare h name)

mutual

/-- What is collected from a statement are the names on the walk over it. -/
theorem collectStmt_eq_foldl (t : SymbolTable) (s : Stmt) :
    t.collectStmt s = (s.parts.filterMap Stmt.assigned?).foldl declare t := by
  match s with
  | .assign (.variable _) _ _ | .assign (.index _ _) _ _ | .assign (.property _ _) _ _
  | .assign (.event _ _) _ _ => rfl
  | .cond _ body arms otherwise _ =>
    rw [collectStmt, collectBody_eq_foldl t body, collectArms_eq_foldl _ arms,
      collectBody_eq_foldl _ otherwise, Stmt.parts, List.filterMap_cons_none rfl,
      List.filterMap_append, List.filterMap_append, List.foldl_append, List.foldl_append]
    rfl
  | .while _ body _ | .sub _ body _ =>
    simp only [collectStmt, collectBody_eq_foldl _ body]
    rfl
  | .for name _ _ _ body _ =>
    simp only [collectStmt, collectBody_eq_foldl _ body]
    rfl
  | .call .. | .goto .. | .label .. | .callSub .. | .empty .. => rfl

theorem collectBody_eq_foldl (t : SymbolTable) (body : List Stmt) :
    t.collectBody body = (assignedNames body).foldl declare t := by
  match body with
  | [] => rfl
  | s :: rest =>
    rw [collectBody, collectStmt_eq_foldl t s, collectBody_eq_foldl _ rest, assignedNames,
      assignedNames, stmtsParts, List.filterMap_append, List.foldl_append]

theorem collectArms_eq_foldl (t : SymbolTable) (arms : List Arm) :
    t.collectArms arms = ((armsParts arms).filterMap Stmt.assigned?).foldl declare t := by
  match arms with
  | [] => rfl
  | .mk _ body :: rest =>
    rw [collectArms, collectBody_eq_foldl t body, collectArms_eq_foldl _ rest, assignedNames,
      armsParts, List.filterMap_append, List.foldl_append]

end

theorem listsFirst_collect (body : List Stmt) :
    ListsFirst (assignedNames body) (collect body).names := by
  have hempty : ListsFirst [] SymbolTable.empty.names :=
    ⟨List.nodup_nil, Iff.rfl, List.Pairwise.nil⟩
  rw [collect, collectBody_eq_foldl]
  exact listsFirst_foldl (assignedNames body) hempty

end SymbolTable

/-! ## Variables that are not declared -/

namespace Names

variable {n : Names} {name : String}

theorem mem_checkVariable_iff {other : String} :
    .undeclaredVariable name ∈ n.checkVariable other ↔ name ∉ n.symbols.names ∧ name = other := by
  rw [checkVariable]
  split
  · rename_i hknown
    have hmem : other ∈ n.symbols.names := List.contains_iff_mem.mp hknown
    refine iff_of_false List.not_mem_nil ?_
    rintro ⟨hname, rfl⟩
    exact hname hmem
  · rename_i hnew
    have hnotMem : other ∉ n.symbols.names := fun h ↦ hnew (List.contains_iff_mem.mpr h)
    rw [List.mem_singleton, Complaint.undeclaredVariable.injEq]
    exact ⟨fun h ↦ ⟨h ▸ hnotMem, h⟩, fun h ↦ h.2⟩

/-- Library members are no variables. -/
theorem notMem_checkMember {α : Type} {kind : MemberKind} {type member : String} {found : Option α}
    {check : α → List Complaint} (hcheck : ∀ a, .undeclaredVariable name ∉ check a) :
    .undeclaredVariable name ∉ n.checkMember kind type member found check := by
  simp only [checkMember]
  split
  · simp
  · split
    · simp
    · exact hcheck _

theorem notMem_checkCall {type method : String} {given : Nat} {needsValue : Bool} :
    .undeclaredVariable name ∉ n.checkCall type method given needsValue := by
  refine notMem_checkMember fun m ↦ ?_
  rw [List.mem_append, not_or]
  constructor
  · split <;> simp
  · split <;> simp

theorem notMem_checkGetter {type property : String} :
    .undeclaredVariable name ∉ n.checkGetter type property :=
  notMem_checkMember fun p ↦ by split <;> simp

theorem notMem_checkSetter {type property : String} :
    .undeclaredVariable name ∉ n.checkSetter type property :=
  notMem_checkMember fun p ↦ by split <;> simp

theorem notMem_checkEvent {type event : String} :
    .undeclaredVariable name ∉ n.checkEvent type event :=
  notMem_checkMember fun _ ↦ List.not_mem_nil

theorem notMem_checkHandler {type event : String} {value : Expr} :
    .undeclaredVariable name ∉ n.checkHandler type event value := by
  cases value <;> simp [checkHandler]

mutual

/-- In an expression, what is not declared is complained about exactly if it is read. -/
theorem mem_checkExpr_iff (e : Expr) : .undeclaredVariable name ∈ n.checkExpr e ↔
    name ∉ n.symbols.names ∧ name ∈ e.parts.filterMap Expr.read? := by
  match e with
  | .number _ | .text _ => simp [checkExpr, Expr.parts, Expr.read?]
  | .variable other =>
    rw [checkExpr, mem_checkVariable_iff]
    simp [Expr.parts, Expr.read?]
  | .index array indices =>
    rw [checkExpr, List.mem_append, mem_checkVariable_iff, mem_checkExprs_iff indices, Expr.parts,
      List.filterMap_cons_some (f := Expr.read?) (b := array) rfl, List.mem_cons, exprReads,
      and_or_left]
  | .property _ _ =>
    rw [checkExpr]
    simp [notMem_checkGetter, Expr.parts, Expr.read?]
  | .call _ _ args =>
    rw [checkExpr, List.mem_append, mem_checkExprs_iff args, Expr.parts,
      List.filterMap_cons_none rfl, exprReads, or_iff_right notMem_checkCall]
  | .binary _ left right =>
    rw [checkExpr, List.mem_append, mem_checkExpr_iff left, mem_checkExpr_iff right, Expr.parts,
      List.filterMap_cons_none rfl, List.filterMap_append, List.mem_append, and_or_left]
  | .negate operand =>
    rw [checkExpr, mem_checkExpr_iff operand, Expr.parts, List.filterMap_cons_none rfl]

theorem mem_checkExprs_iff (es : List Expr) : .undeclaredVariable name ∈ n.checkExprs es ↔
    name ∉ n.symbols.names ∧ name ∈ exprReads es := by
  match es with
  | [] => simp [checkExprs, exprReads, exprsParts]
  | e :: rest =>
    rw [checkExprs, List.mem_append, mem_checkExpr_iff e, mem_checkExprs_iff rest, exprReads,
      exprReads, exprsParts, List.filterMap_append, List.mem_append, and_or_left]

end

theorem uses_of_mem_checkAssign {value : Expr} {target : Target}
    (h : .undeclaredVariable name ∈ n.checkAssign value target) :
    name ∉ n.symbols.names ∧
      (target.assigned? = some name ∨ name ∈ exprReads (target.evaluated value)) := by
  have hvalue (hread : .undeclaredVariable name ∈ n.checkExpr value) :
      name ∉ n.symbols.names ∧ name ∈ exprReads [value] :=
    (mem_checkExprs_iff [value]).mp (List.mem_append_left _ hread)
  match target with
  | .variable other =>
    obtain h | h := List.mem_append.mp h
    · obtain ⟨hname, rfl⟩ := mem_checkVariable_iff.mp h
      exact ⟨hname, .inl rfl⟩
    · exact ⟨(hvalue h).1, .inr (hvalue h).2⟩
  | .index array indices =>
    simp only [checkAssign, List.mem_append] at h
    rw [Target.evaluated, exprReads_append, List.mem_append]
    obtain ((h | h) | h) | h := h
    · obtain ⟨hname, rfl⟩ := mem_checkVariable_iff.mp h
      exact ⟨hname, .inl rfl⟩
    · -- An array without indices is another complaint.
      split at h <;> simp at h
    · obtain ⟨hname, hread⟩ := (mem_checkExprs_iff indices).mp h
      exact ⟨hname, .inr (.inl hread)⟩
    · exact ⟨(hvalue h).1, .inr (.inr (hvalue h).2)⟩
  | .property type property =>
    obtain h | h := List.mem_append.mp h
    · exact absurd h notMem_checkSetter
    · exact ⟨(hvalue h).1, .inr (hvalue h).2⟩
  | .event type event =>
    obtain h | h := List.mem_append.mp h
    · exact absurd h notMem_checkEvent
    · exact absurd h notMem_checkHandler

mutual

/-- Only what a statement inside of the statement uses is complained about. -/
theorem uses_of_mem_checkStmt (env : RoutineEnv) (s : Stmt)
    (h : .undeclaredVariable name ∈ complaints (n.checkStmt env s).2) :
    name ∉ n.symbols.names ∧ ∃ s' ∈ s.parts, s'.Uses name := by
  match s with
  | .assign target value span =>
    rw [checkStmt, complaints_atSpan] at h
    obtain ⟨hname, huses⟩ := uses_of_mem_checkAssign h
    exact ⟨hname, _, List.mem_singleton_self _, huses⟩
  | .call type method args span =>
    rw [checkStmt, complaints_atSpan, List.mem_append, or_iff_right notMem_checkCall,
      mem_checkExprs_iff] at h
    exact ⟨h.1, _, List.mem_singleton_self _, .inr h.2⟩
  | .cond condition body arms otherwise span =>
    simp only [checkStmt, complaints_append, complaints_atSpan, List.mem_append] at h
    simp only [Stmt.parts, List.mem_cons, List.mem_append, exists_eq_or_imp, Stmt.Uses,
      Stmt.evaluated, exprReads_cons]
    obtain ((h | h) | h) | h := h
    · obtain ⟨hname, hread⟩ := (mem_checkExpr_iff condition).mp h
      exact ⟨hname, .inl (.inr (.inl hread))⟩
    · obtain ⟨hname, s', hs', huses⟩ := uses_of_mem_checkStmts _ body h
      exact ⟨hname, .inr ⟨s', .inl (.inl hs'), huses⟩⟩
    · obtain ⟨hname, hread | ⟨s', hs', huses⟩⟩ := uses_of_mem_checkArms _ span arms h
      · exact ⟨hname, .inl (.inr (.inr hread))⟩
      · exact ⟨hname, .inr ⟨s', .inl (.inr hs'), huses⟩⟩
    · obtain ⟨hname, s', hs', huses⟩ := uses_of_mem_checkStmts _ otherwise h
      exact ⟨hname, .inr ⟨s', .inr hs', huses⟩⟩
  | .while condition body span =>
    simp only [checkStmt, complaints_append, complaints_atSpan, List.mem_append] at h
    simp only [Stmt.parts, List.mem_cons, exists_eq_or_imp, Stmt.Uses, Stmt.evaluated,
      exprReads_cons, List.mem_append]
    obtain h | h := h
    · obtain ⟨hname, hread⟩ := (mem_checkExpr_iff condition).mp h
      exact ⟨hname, .inl (.inr (.inl hread))⟩
    · obtain ⟨hname, s', hs', huses⟩ := uses_of_mem_checkStmts _ body h
      exact ⟨hname, .inr ⟨s', hs', huses⟩⟩
  | .for other start stop step body span =>
    simp only [checkStmt, complaints_append, complaints_atSpan, List.mem_append] at h
    simp only [Stmt.parts, List.mem_cons, exists_eq_or_imp, Stmt.Uses, Stmt.evaluated,
      exprReads_cons, List.mem_append]
    obtain (((h | h) | h) | h) | h := h
    · obtain ⟨hname, rfl⟩ := mem_checkVariable_iff.mp h
      exact ⟨hname, .inl (.inl rfl)⟩
    · obtain ⟨hname, hread⟩ := (mem_checkExpr_iff start).mp h
      exact ⟨hname, .inl (.inr (.inl hread))⟩
    · obtain ⟨hname, hread⟩ := (mem_checkExpr_iff stop).mp h
      exact ⟨hname, .inl (.inr (.inr (.inl hread)))⟩
    · obtain ⟨hname, hread⟩ := (mem_checkExprs_iff step.toList).mp h
      exact ⟨hname, .inl (.inr (.inr (.inr hread)))⟩
    · obtain ⟨hname, s', hs', huses⟩ := uses_of_mem_checkStmts _ body h
      exact ⟨hname, .inr ⟨s', hs', huses⟩⟩
  | .sub other body span =>
    rw [checkStmt] at h
    split at h
    · simp only [complaints_append, List.mem_append, RoutineEnv.push_subroutine,
        complaints_declareLabels] at h
      obtain h | h := h
      · simp at h
      · obtain ⟨hname, s', hs', huses⟩ := uses_of_mem_checkStmts _ body h
        exact ⟨hname, s', List.mem_cons_of_mem _ hs', huses⟩
    · -- The checker does not go into a subroutine that is inside of another one.
      rw [complaints_atSpan] at h
      simp at h
  | .goto .. | .label .. | .callSub .. =>
    simp only [checkStmt] at h
    split at h <;> simp [complaints, atSpan] at h
  | .empty _ => exact absurd h List.not_mem_nil

theorem uses_of_mem_checkStmts (env : RoutineEnv) (body : List Stmt)
    (h : .undeclaredVariable name ∈ complaints (n.checkStmts env body).2) :
    name ∉ n.symbols.names ∧ ∃ s' ∈ stmtsParts body, s'.Uses name := by
  match body with
  | [] => exact absurd h List.not_mem_nil
  | s :: rest =>
    simp only [checkStmts, complaints_append, List.mem_append] at h
    rw [stmtsParts]
    obtain h | h := h
    · obtain ⟨hname, s', hs', huses⟩ := uses_of_mem_checkStmt env s h
      exact ⟨hname, s', List.mem_append_left _ hs', huses⟩
    · obtain ⟨hname, s', hs', huses⟩ := uses_of_mem_checkStmts _ rest h
      exact ⟨hname, s', List.mem_append_right _ hs', huses⟩

/-- The conditions of further arms are evaluated by the conditional around them. -/
theorem uses_of_mem_checkArms (env : RoutineEnv) (span : Span) (arms : List Arm)
    (h : .undeclaredVariable name ∈ complaints (n.checkArms env span arms).2) :
    name ∉ n.symbols.names ∧ (name ∈ exprReads (arms.map Arm.condition) ∨
      ∃ s' ∈ armsParts arms, s'.Uses name) := by
  match arms with
  | [] => exact absurd h List.not_mem_nil
  | .mk condition body :: rest =>
    simp only [checkArms, complaints_append, complaints_atSpan, List.mem_append] at h
    rw [armsParts, List.map_cons, exprReads_cons, List.mem_append]
    obtain (h | h) | h := h
    · obtain ⟨hname, hread⟩ := (mem_checkExpr_iff condition).mp h
      exact ⟨hname, .inl (.inl hread)⟩
    · obtain ⟨hname, s', hs', huses⟩ := uses_of_mem_checkStmts _ body h
      exact ⟨hname, .inr ⟨s', List.mem_append_left _ hs', huses⟩⟩
    · obtain ⟨hname, hread | ⟨s', hs', huses⟩⟩ := uses_of_mem_checkArms _ span rest h
      · exact ⟨hname, .inl (.inr hread)⟩
      · exact ⟨hname, .inr ⟨s', List.mem_append_right _ hs', huses⟩⟩

end

end Names

/-! ## Programs -/

namespace Program

variable {r : Registry} {p : Program} {name : String}

/-- A variable that is complained about is not in the table, and used by some statement. -/
theorem uses_of_mem_check (h : .undeclaredVariable name ∈ complaints (p.check r)) :
    name ∉ p.symbols.names ∧ ∃ s ∈ stmtsParts p.body, s.Uses name := by
  have hsubroutines : complaints (declareSubroutines [] p.body).2 = _ :=
    (collects_declareSubroutines [] p.body).again
  have hlabels : complaints (declareLabels .start p.body).2 = _ :=
    complaints_declareLabels [.entry] [] p.body []
  simp only [check, complaints_append, List.mem_append, hsubroutines, hlabels] at h
  obtain (h | h) | h := h
  · simp at h
  · simp at h
  · exact Names.uses_of_mem_checkStmts _ p.body h

end Program

theorem mem_assignedNames {body : List Stmt} {name : String} :
    name ∈ assignedNames body ↔ ∃ s ∈ stmtsParts body, s.assigned? = some name :=
  List.mem_filterMap

theorem mem_readNames {body : List Stmt} {name : String} :
    name ∈ readNames body ↔ ∃ s ∈ stmtsParts body, name ∈ exprReads s.evaluated :=
  List.mem_flatMap

/-- The code is that of no other complaint. -/
theorem Complaint.eq_undeclaredVariable {c : Complaint} (h : c.code = 300) :
    ∃ name, c = .undeclaredVariable name := by
  cases c with
  | undeclaredVariable name => exact ⟨name, rfl⟩
  | _ => cases h

/-- **Collected variables are the assigned names**: the table lists the names that occur as targets,
as arrays of targets or as variables of loops, without repetitions and in the order in which a walk
over the whole tree meets them first. So if the variables of a program are collected, only a name
that is read somewhere and assigned nowhere is reported as not declared. -/
theorem SymbolTable.collect_exact (body : List Stmt) :
    (collect body).names.Nodup ∧
    (∀ name, name ∈ (collect body).names ↔ ∃ s ∈ stmtsParts body, s.assigned? = some name) ∧
    (collect body).names.Pairwise
      (fun a b ↦ (assignedNames body).idxOf a < (assignedNames body).idxOf b) ∧
    ∀ (r : Registry) (source : SourceText), ∀ d ∈ (Program.ofBody body).analyze r source,
      d.code = 300 → ∃ name span, d = .of source (.undeclaredVariable name) span ∧
        name ∈ readNames body ∧ name ∉ assignedNames body := by
  have hfirst := listsFirst_collect body
  refine ⟨hfirst.nodup, fun name ↦ hfirst.mem_iff.trans mem_assignedNames, hfirst.ordered, ?_⟩
  intro r source d hd hcode
  obtain ⟨f, hf, rfl⟩ := List.mem_map.mp hd
  obtain ⟨name, hname⟩ := Complaint.eq_undeclaredVariable hcode
  have hmem : .undeclaredVariable name ∈ complaints ((Program.ofBody body).check r) :=
    List.mem_map.mpr ⟨f, hf, hname⟩
  obtain ⟨habsent, s, hs, huses⟩ := Program.uses_of_mem_check hmem
  have hunassigned : name ∉ assignedNames body := fun h ↦ habsent (hfirst.mem_iff.mpr h)
  refine ⟨name, f.span, by rw [hname], ?_, hunassigned⟩
  -- What is used without being assigned is read.
  obtain hassigned | hread := huses
  · exact absurd (mem_assignedNames.mpr ⟨s, hs, hassigned⟩) hunassigned
  · exact mem_readNames.mpr ⟨s, hs, hread⟩

/-- Statements that assign names over and over, in every kind of block, and that read one which
nothing assigns. -/
def scatteredBody : List Stmt :=
  [.for "i" (.variable "total") (.variable "limit") (some (.variable "i"))
      [.assign (.index "squares" [.variable "i"]) (.variable "total") default,
        .assign (.variable "i") (.variable "squares") default] default,
    .sub "finish"
      [.while (.variable "done") [.assign (.variable "total") (.text "") default] default] default,
    .cond (.index "squares" [.text "1"])
      [.assign (.variable "done") (.negate (.variable "i")) default]
      [.mk (.variable "total") [.assign (.variable "other") (.text "") default]]
      [.assign (.variable "squares") (.text "") default,
        .assign (.property "Screen" "Limit") (.variable "done") default] default]

theorem SymbolTable.collect_scatteredBody :
    let d : Diagnostic := .of default (.undeclaredVariable "limit") default
    (collect scatteredBody).names = ["i", "squares", "total", "done", "other"] ∧
    assignedNames scatteredBody = ["i", "squares", "i", "total", "done", "other", "squares"] ∧
    (d ∈ (Program.ofBody scatteredBody).analyze .empty default ∧ d.code = 300) ∧
    (collect scatteredBody).names.Nodup ∧
    ∃ name span, d = .of default (.undeclaredVariable name) span ∧
      name ∈ readNames scatteredBody ∧ name ∉ assignedNames scatteredBody := by
  intro d
  have hmem : d ∈ (Program.ofBody scatteredBody).analyze .empty default :=
    List.mem_map.mpr ⟨⟨.undeclaredVariable "limit", default⟩, by decide, rfl⟩
  have hexact := collect_exact scatteredBody
  exact ⟨by decide, by decide, ⟨hmem, rfl⟩, hexact.1, hexact.2.2.2 .empty default d hmem rfl⟩

end ScriptWasm
