import ScriptWasm.Proofs.Build.Outcome
import ScriptWasm.Proofs.Analysis.Verdict

/-!
# The order of statements does not matter to the checker

Labels and subroutines are collected before anything is looked up, so they may be used before they
are declared, and the statements of a routine can be put in any order without changing what is wrong
with the program. Where it is reported may change: of two labels of one name the second is reported,
and which one is the second is a matter of order. But each complaint is made as often as before.

There are two reasons. Every statement hands on the environment that it was given, so what is found
in a list of statements is what is found in each of them, one after the other. And what is looked up
is looked up by membership, in a list that has the same members in any order.
-/

namespace ScriptWasm

/-! ## Programs in another order -/

mutual

/-- Statements that differ only in the order of statements inside of subroutines. -/
inductive Stmt.Reordered : Stmt → Stmt → Prop
  | assign (target : Target) (value : Expr) (span : Span) :
    Stmt.Reordered (.assign target value span) (.assign target value span)
  | call (type method : String) (args : List Expr) (span : Span) :
    Stmt.Reordered (.call type method args span) (.call type method args span)
  | cond (condition : Expr) {body body' : List Stmt} {arms arms' : List Arm}
    {otherwise otherwise' : List Stmt} (span : Span) (hbody : BlockReordered body body')
    (harms : ArmsReordered arms arms') (hotherwise : BlockReordered otherwise otherwise') :
    Stmt.Reordered (.cond condition body arms otherwise span)
      (.cond condition body' arms' otherwise' span)
  | while (condition : Expr) {body body' : List Stmt} (span : Span)
    (hbody : BlockReordered body body') :
    Stmt.Reordered (.while condition body span) (.while condition body' span)
  | for (name : String) (start stop : Expr) (step : Option Expr) {body body' : List Stmt}
    (span : Span) (hbody : BlockReordered body body') :
    Stmt.Reordered (.for name start stop step body span) (.for name start stop step body' span)
  | goto (name : String) (span : Span) : Stmt.Reordered (.goto name span) (.goto name span)
  | label (name : String) (span : Span) : Stmt.Reordered (.label name span) (.label name span)
  | sub (name : String) {body body' : List Stmt} (span : Span)
    (hbody : RoutineReordered body body') :
    Stmt.Reordered (.sub name body span) (.sub name body' span)
  | callSub (name : String) (span : Span) :
    Stmt.Reordered (.callSub name span) (.callSub name span)
  | empty (span : Span) : Stmt.Reordered (.empty span) (.empty span)

/-- The statements of a block stay in their order. -/
inductive BlockReordered : List Stmt → List Stmt → Prop
  | nil : BlockReordered [] []
  | cons {s s' : Stmt} {body body' : List Stmt} (h : Stmt.Reordered s s')
    (hbody : BlockReordered body body') : BlockReordered (s :: body) (s' :: body')

inductive ArmsReordered : List Arm → List Arm → Prop
  | nil : ArmsReordered [] []
  | cons (condition : Expr) {body body' : List Stmt} {arms arms' : List Arm}
    (hbody : BlockReordered body body') (harms : ArmsReordered arms arms') :
    ArmsReordered (.mk condition body :: arms) (.mk condition body' :: arms')

/-- The statements of a routine may be in any order. -/
inductive RoutineReordered : List Stmt → List Stmt → Prop
  | mk {body between body' : List Stmt} (h : BlockReordered body between)
    (hperm : between.Perm body') : RoutineReordered body body'

end

/-- Programs with the same variables that differ only in the order of their statements and of those
of their subroutines. -/
structure Program.Reordered (p q : Program) : Prop where
  symbols : p.symbols = q.symbols
  body : RoutineReordered p.body q.body

mutual

theorem Stmt.Reordered.refl (s : Stmt) : s.Reordered s := by
  match s with
  | .assign target value span => exact .assign target value span
  | .call type method args span => exact .call type method args span
  | .cond condition body arms otherwise span =>
    exact .cond condition span (.refl body) (.refl arms) (.refl otherwise)
  | .while condition body span => exact .while condition span (.refl body)
  | .for name start stop step body span => exact .for name start stop step span (.refl body)
  | .goto name span => exact .goto name span
  | .label name span => exact .label name span
  | .sub name body span => exact .sub name span (.mk (.refl body) (.refl body))
  | .callSub name span => exact .callSub name span
  | .empty span => exact .empty span

theorem BlockReordered.refl (body : List Stmt) : BlockReordered body body := by
  match body with
  | [] => exact .nil
  | s :: rest => exact .cons (.refl s) (.refl rest)

theorem ArmsReordered.refl (arms : List Arm) : ArmsReordered arms arms := by
  match arms with
  | [] => exact .nil
  | .mk condition body :: rest => exact .cons condition (.refl body) (.refl rest)

end

/-- Any order of the statements of a routine will do. -/
theorem RoutineReordered.of_perm {body body' : List Stmt} (h : body.Perm body') :
    RoutineReordered body body' := .mk (.refl body) h

/-! ## Names that are declared again -/

/-- Those of the names that are known already, or that have come before. -/
def repeats (known : List String) : List String → List String
  | [] => []
  | name :: rest =>
    if known.contains name then name :: repeats known rest
    else repeats (known ++ [name]) rest

theorem repeats_cons (known : List String) (name : String) (rest : List String) :
    repeats known (name :: rest) =
      (if known.contains name then [name] else []) ++ repeats (declareName known name) rest := by
  rw [repeats, declareName]
  split <;> rfl

theorem repeats_append (known names more : List String) :
    repeats known (names ++ more) =
      repeats known names ++ repeats (names.foldl declareName known) more := by
  induction names generalizing known with
  | nil => rfl
  | cons name names ih =>
    rw [List.cons_append, repeats_cons, repeats_cons, ih, List.append_assoc, List.foldl_cons]

/-- A name is there again as often as it is declared, but for the first time. -/
theorem count_repeats (known names : List String) (name : String) :
    (repeats known names).count name =
      if name ∈ known then names.count name else names.count name - 1 := by
  induction names generalizing known with
  | nil => simp [repeats]
  | cons first rest ih =>
    rw [repeats_cons, List.count_append, ih, List.count_cons]
    -- The first name is reported if it is known; otherwise it is known from here on.
    by_cases hfirst : first ∈ known
    · by_cases hname : first = name
      · subst hname
        simp [hfirst, declareName, Nat.add_comm]
      · simp [hfirst, hname, declareName]
    · by_cases hname : first = name
      · subst hname
        simp [hfirst, declareName_of_notMem hfirst]
      · have hne : name ≠ first := fun h ↦ hname h.symm
        simp [hfirst, hname, hne, declareName_of_notMem hfirst]

theorem repeats_perm {names names' : List String} (h : names.Perm names') (known : List String) :
    (repeats known names).Perm (repeats known names') := by
  refine List.perm_iff_count.mpr fun name ↦ ?_
  rw [count_repeats, count_repeats, h.count_eq]

theorem mem_foldl_declareName {names known : List String} {name : String} :
    name ∈ names.foldl declareName known ↔ name ∈ known ∨ name ∈ names := by
  induction names generalizing known with
  | nil => simp
  | cons first rest ih =>
    have hfirst : name ∈ declareName known first ↔ name ∈ known ∨ name = first := by
      rw [declareName]
      split
      · rename_i hknown
        have hmem : first ∈ known := List.contains_iff_mem.mp hknown
        exact ⟨.inl, fun h ↦ h.elim id fun h ↦ h ▸ hmem⟩
      · simp
    rw [List.foldl_cons, ih, hfirst, List.mem_cons, or_assoc]

/-! ## Declarations -/

/-- What is wrong, wherever it is. -/
def complaints (found : List Finding) : List Complaint := found.map Finding.complaint

@[simp] theorem complaints_append (found found' : List Finding) :
    complaints (found ++ found') = complaints found ++ complaints found' := List.map_append

@[simp] theorem complaints_atSpan (span : Span) (cs : List Complaint) :
    complaints (atSpan span cs) = cs := by
  rw [complaints, atSpan, List.map_map]
  exact List.map_id cs

theorem complaints_of_contains (known : List String) (name : String) (span : Span)
    (complaint : String → Complaint) :
    complaints (if known.contains name then atSpan span [complaint name] else []) =
      (if known.contains name then [name] else []).map complaint := by
  split
  · exact complaints_atSpan span _
  · rfl

/-- The labels that are reported are those that are declared again. -/
theorem complaints_declareLabels (scopes : List ScopeKind) (rest : List (List String))
    (body : List Stmt) (known : List String) :
    complaints (declareLabels ⟨scopes, known :: rest⟩ body).2 =
      (repeats known (labelNames body)).map .duplicateLabel := by
  induction body generalizing known with
  | nil => rfl
  | cons s body ih =>
    cases hs : s.labelName? with
    | none => rw [declareLabels_cons_of_none hs, labelNames_cons_of_none hs, ih]
    | some name =>
      obtain ⟨span, rfl⟩ := Stmt.eq_label hs
      simp only [declareLabels, RoutineEnv.defineLabel_cons, complaints_append, ih,
        labelNames_label, repeats_cons, List.map_append]
      exact congrArg (· ++ _) (complaints_of_contains known name span .duplicateLabel)

mutual

/-- The names of the subroutines in a statement, wherever they stand. -/
def Stmt.declared : Stmt → List String
  | .sub name body _ => name :: stmtsDeclared body
  | .cond _ body arms otherwise _ =>
    stmtsDeclared body ++ armsDeclared arms ++ stmtsDeclared otherwise
  | .while _ body _ => stmtsDeclared body
  | .for _ _ _ _ body _ => stmtsDeclared body
  | .assign .. => []
  | .call .. => []
  | .goto .. => []
  | .label .. => []
  | .callSub .. => []
  | .empty .. => []

def stmtsDeclared : List Stmt → List String
  | [] => []
  | s :: rest => s.declared ++ stmtsDeclared rest

def armsDeclared : List Arm → List String
  | [] => []
  | .mk _ body :: rest => stmtsDeclared body ++ armsDeclared rest

end

/-- Subroutines have been collected: the names are declared one after the other, and those that are
declared again are reported. -/
structure Collects (known names : List String) (result : List String × List Finding) : Prop where
  all : result.1 = names.foldl declareName known
  again : complaints result.2 = (repeats known names).map .duplicateSubroutine

namespace Collects

variable {known names more : List String} {first second : List String × List Finding}

theorem nil (known : List String) : Collects known [] (known, []) := ⟨rfl, rfl⟩

theorem append (h : Collects known names first) (h' : Collects first.1 more second) :
    Collects known (names ++ more) (second.1, first.2 ++ second.2) where
  all := by rw [h'.all, h.all, List.foldl_append]
  again := by rw [complaints_append, h.again, h'.again, h.all, repeats_append, List.map_append]

theorem cons {name : String} (span : Span) (h : Collects (declareName known name) names second) :
    Collects known (name :: names) (second.1,
      (if known.contains name then atSpan span [.duplicateSubroutine name] else []) ++
        second.2) where
  all := h.all
  again := by
    rw [complaints_append, h.again, repeats_cons, List.map_append,
      complaints_of_contains known name span .duplicateSubroutine]

end Collects

mutual

theorem collects_declareSubroutine (known : List String) (s : Stmt) :
    Collects known s.declared (declareSubroutine known s) := by
  match s with
  | .sub name body span =>
    exact .cons span (collects_declareSubroutines _ body)
  | .cond condition body arms otherwise span =>
    exact ((collects_declareSubroutines known body).append
      (collects_declareArmSubroutines _ arms)).append (collects_declareSubroutines _ otherwise)
  | .while condition body span => exact collects_declareSubroutines known body
  | .for name start stop step body span => exact collects_declareSubroutines known body
  | .assign .. => exact .nil known
  | .call .. => exact .nil known
  | .goto .. => exact .nil known
  | .label .. => exact .nil known
  | .callSub .. => exact .nil known
  | .empty .. => exact .nil known

theorem collects_declareSubroutines (known : List String) (body : List Stmt) :
    Collects known (stmtsDeclared body) (declareSubroutines known body) := by
  match body with
  | [] => exact .nil known
  | s :: rest =>
    exact (collects_declareSubroutine known s).append (collects_declareSubroutines _ rest)

theorem collects_declareArmSubroutines (known : List String) (arms : List Arm) :
    Collects known (armsDeclared arms) (declareArmSubroutines known arms) := by
  match arms with
  | [] => exact .nil known
  | .mk condition body :: rest =>
    exact (collects_declareSubroutines known body).append (collects_declareArmSubroutines _ rest)

end

theorem stmtsDeclared_eq_flatMap (body : List Stmt) :
    stmtsDeclared body = body.flatMap Stmt.declared := by
  induction body with
  | nil => rfl
  | cons s rest ih => rw [stmtsDeclared, ih, List.flatMap_cons]

theorem stmtsDeclared_perm {body body' : List Stmt} (h : body.Perm body') :
    (stmtsDeclared body).Perm (stmtsDeclared body') := by
  rw [stmtsDeclared_eq_flatMap, stmtsDeclared_eq_flatMap]
  exact h.flatMap_right Stmt.declared

theorem Stmt.Reordered.labelName?_eq {s s' : Stmt} (h : s.Reordered s') :
    s.labelName? = s'.labelName? := by
  cases h <;> rfl

theorem BlockReordered.labelNames_eq {body body' : List Stmt} (h : BlockReordered body body') :
    labelNames body = labelNames body' := by
  induction body generalizing body' with
  | nil =>
    cases h
    rfl
  | cons s rest ih =>
    cases h with
    | cons hs hrest => rw [labelNames_cons, labelNames_cons, hs.labelName?_eq, ih hrest]

theorem RoutineReordered.labelNames_perm {body body' : List Stmt}
    (h : RoutineReordered body body') : (labelNames body).Perm (labelNames body') := by
  cases h with
  | mk h hperm => exact h.labelNames_eq ▸ hperm.filterMap Stmt.labelName?

mutual

theorem Stmt.Reordered.declared_perm {s s' : Stmt} (h : s.Reordered s') :
    s.declared.Perm s'.declared := by
  match s, h with
  | .sub name body span, .sub _ _ (.mk hbody hperm) =>
    exact .cons name (hbody.declared_perm.trans (stmtsDeclared_perm hperm))
  | .cond condition body arms otherwise span, .cond _ _ hbody harms hotherwise =>
    exact (hbody.declared_perm.append harms.declared_perm).append hotherwise.declared_perm
  | .while condition body span, .while _ _ hbody => exact hbody.declared_perm
  | .for name start stop step body span, .for _ _ _ _ _ hbody => exact hbody.declared_perm
  | .assign .., .assign .. => exact .refl _
  | .call .., .call .. => exact .refl _
  | .goto .., .goto .. => exact .refl _
  | .label .., .label .. => exact .refl _
  | .callSub .., .callSub .. => exact .refl _
  | .empty .., .empty .. => exact .refl _

theorem BlockReordered.declared_perm {body body' : List Stmt} (h : BlockReordered body body') :
    (stmtsDeclared body).Perm (stmtsDeclared body') := by
  match body, h with
  | [], .nil => exact .refl _
  | s :: rest, .cons hs hrest => exact hs.declared_perm.append hrest.declared_perm

theorem ArmsReordered.declared_perm {arms arms' : List Arm} (h : ArmsReordered arms arms') :
    (armsDeclared arms).Perm (armsDeclared arms') := by
  match arms, h with
  | [], .nil => exact .refl _
  | .mk condition body :: rest, .cons _ hbody hrest =>
    exact hbody.declared_perm.append hrest.declared_perm

end

theorem RoutineReordered.declared_perm {body body' : List Stmt} (h : RoutineReordered body body') :
    (stmtsDeclared body).Perm (stmtsDeclared body') := by
  cases h with
  | mk h hperm => exact h.declared_perm.trans (stmtsDeclared_perm hperm)

/-! ## Lookups -/

/-- The same names but for the order of the subroutines. -/
structure Names.SameMembers (n n' : Names) : Prop where
  registry : n.registry = n'.registry
  symbols : n.symbols = n'.symbols
  subroutines : ∀ name, n.subroutines.contains name = n'.subroutines.contains name

/-- Environments that a statement cannot tell apart. -/
structure RoutineEnv.SamePlace (env env' : RoutineEnv) : Prop where
  current : env.current = env'.current
  labels : ∀ name, env.hasLabel name = env'.hasLabel name

theorem RoutineEnv.push_subroutine (env : RoutineEnv) :
    env.push .subroutine = ⟨.subroutine :: env.scopes, [] :: env.labels⟩ := rfl

theorem RoutineEnv.SamePlace.push_block {env env' : RoutineEnv} (h : env.SamePlace env') :
    (env.push .block).SamePlace (env'.push .block) := ⟨rfl, h.labels⟩

theorem contains_foldl_declareName {names names' : List String} (h : names.Perm names')
    (known : List String) (name : String) :
    (names.foldl declareName known).contains name =
      (names'.foldl declareName known).contains name := by
  rw [Bool.eq_iff_iff, List.contains_iff_mem, List.contains_iff_mem, mem_foldl_declareName,
    mem_foldl_declareName, h.mem_iff]

namespace Names

variable {n n' : Names}

mutual

/-- Subroutines do not occur in expressions. -/
theorem SameMembers.checkExpr_eq (hn : n.SameMembers n') (e : Expr) :
    n.checkExpr e = n'.checkExpr e := by
  match e with
  | .number _ => rfl
  | .text _ => rfl
  | .variable name => simp only [checkExpr, checkVariable, hn.symbols]
  | .index array indices =>
    simp only [checkExpr, checkVariable, hn.symbols, hn.checkExprs_eq indices]
  | .property type name => simp only [checkExpr, checkGetter, checkMember, hn.registry]
  | .call type method args =>
    simp only [checkExpr, checkCall, checkMember, hn.registry, hn.checkExprs_eq args]
  | .binary _ left right => simp only [checkExpr, hn.checkExpr_eq left, hn.checkExpr_eq right]
  | .negate operand => simp only [checkExpr, hn.checkExpr_eq operand]

theorem SameMembers.checkExprs_eq (hn : n.SameMembers n') (es : List Expr) :
    n.checkExprs es = n'.checkExprs es := by
  match es with
  | [] => rfl
  | e :: rest => simp only [checkExprs, hn.checkExpr_eq e, hn.checkExprs_eq rest]

end

theorem SameMembers.checkAssign_eq (hn : n.SameMembers n') (value : Expr) (target : Target) :
    n.checkAssign value target = n'.checkAssign value target := by
  match target with
  | .variable name => simp only [checkAssign, checkVariable, hn.symbols, hn.checkExpr_eq value]
  | .index array indices =>
    simp only [checkAssign, checkVariable, hn.symbols, hn.checkExprs_eq indices,
      hn.checkExpr_eq value]
  | .property type name =>
    simp only [checkAssign, checkSetter, checkMember, hn.registry, hn.checkExpr_eq value]
  | .event type name =>
    have hhandler : n.checkHandler type name value = n'.checkHandler type name value := by
      cases value <;> simp only [checkHandler, hn.subroutines]
    simp only [checkAssign, checkEvent, checkMember, hn.registry, hhandler]

/-! ## Statements -/

/-- What is found in statements is what is found in each of them, where all of them stand. -/
theorem checkStmts_snd (n : Names) (env : RoutineEnv) (body : List Stmt) :
    (n.checkStmts env body).2 = body.flatMap fun s ↦ (n.checkStmt env s).2 := by
  induction body with
  | nil => rfl
  | cons s rest ih => simp only [checkStmts, checkStmt_fst, ih, List.flatMap_cons]

theorem complaints_checkStmts_perm (n : Names) (env : RoutineEnv) {body body' : List Stmt}
    (h : body.Perm body') :
    (complaints (n.checkStmts env body).2).Perm (complaints (n.checkStmts env body').2) := by
  rw [checkStmts_snd, checkStmts_snd]
  exact (h.flatMap_right _).map _

/-- The beginning of a routine, behind the declaration of its labels. -/
theorem samePlace_declareLabels (kind : ScopeKind) {scopes scopes' : List ScopeKind}
    {rest rest' : List (List String)} {body body' : List Stmt}
    (h : (labelNames body).Perm (labelNames body')) :
    (declareLabels ⟨kind :: scopes, [] :: rest⟩ body).1.SamePlace
      (declareLabels ⟨kind :: scopes', [] :: rest'⟩ body').1 := by
  rw [declareLabels_fst, declareLabels_fst]
  exact ⟨rfl, contains_foldl_declareName h []⟩

mutual

theorem SameMembers.complaints_checkStmt_perm (hn : n.SameMembers n') {env env' : RoutineEnv}
    (he : env.SamePlace env') {s s' : Stmt} (hs : s.Reordered s') :
    (complaints (n.checkStmt env s).2).Perm (complaints (n'.checkStmt env' s').2) := by
  match s, hs with
  | .assign target value span, .assign .. =>
    rw [checkStmt, checkStmt, hn.checkAssign_eq]
  | .call type method args span, .call .. =>
    simp only [checkStmt, checkCall, checkMember, hn.registry, hn.checkExprs_eq args]
    exact .refl _
  | .cond condition body arms otherwise span, .cond _ _ hbody harms hotherwise =>
    simp only [checkStmt, checkStmts_fst, checkArms_fst, RoutineEnv.pop_push_block,
      complaints_append, hn.checkExpr_eq condition]
    exact (((List.Perm.refl _).append (hn.complaints_checkBlock_perm he.push_block hbody)).append
      (hn.complaints_checkArms_perm he span harms)).append
      (hn.complaints_checkBlock_perm he.push_block hotherwise)
  | .while condition body span, .while _ _ hbody =>
    simp only [checkStmt, complaints_append, hn.checkExpr_eq condition]
    exact (List.Perm.refl _).append (hn.complaints_checkBlock_perm he.push_block hbody)
  | .for name start stop step body span, .for _ _ _ _ _ hbody =>
    simp only [checkStmt, complaints_append, checkVariable, hn.symbols, hn.checkExpr_eq,
      hn.checkExprs_eq]
    exact (List.Perm.refl _).append (hn.complaints_checkBlock_perm he.push_block hbody)
  | .goto name span, .goto .. => rw [checkStmt, checkStmt, he.labels]
  | .label name span, .label .. =>
    rw [checkStmt, checkStmt, RoutineEnv.inBlock, RoutineEnv.inBlock, he.current]
  | .sub name body span, .sub _ _ (.mk hbody hperm) =>
    have hlabels := (RoutineReordered.mk hbody hperm).labelNames_perm
    simp only [checkStmt, he.current]
    split
    · simp only [complaints_append, RoutineEnv.push_subroutine, complaints_declareLabels]
      refine ((repeats_perm hlabels []).map _).append ?_
      -- The body is first taken to its counterpart in the same order, and there put in the other.
      refine List.Perm.trans ?_ (n'.complaints_checkStmts_perm _ hperm)
      exact hn.complaints_checkBlock_perm (samePlace_declareLabels _ hlabels) hbody
    · exact .refl _
  | .callSub name span, .callSub .. => rw [checkStmt, checkStmt, hn.subroutines]
  | .empty _, .empty _ => exact .refl _

theorem SameMembers.complaints_checkBlock_perm (hn : n.SameMembers n') {env env' : RoutineEnv}
    (he : env.SamePlace env') {body body' : List Stmt} (hbody : BlockReordered body body') :
    (complaints (n.checkStmts env body).2).Perm (complaints (n'.checkStmts env' body').2) := by
  match body, hbody with
  | [], .nil => exact .refl _
  | s :: rest, .cons hs hrest =>
    simp only [checkStmts, checkStmt_fst, complaints_append]
    exact (hn.complaints_checkStmt_perm he hs).append (hn.complaints_checkBlock_perm he hrest)

theorem SameMembers.complaints_checkArms_perm (hn : n.SameMembers n') {env env' : RoutineEnv}
    (he : env.SamePlace env') (span : Span) {arms arms' : List Arm}
    (harms : ArmsReordered arms arms') :
    (complaints (n.checkArms env span arms).2).Perm
      (complaints (n'.checkArms env' span arms').2) := by
  match arms, harms with
  | [], .nil => exact .refl _
  | .mk condition body :: rest, .cons _ hbody hrest =>
    simp only [checkArms, checkStmts_fst, RoutineEnv.pop_push_block, complaints_append,
      hn.checkExpr_eq condition]
    exact ((List.Perm.refl _).append (hn.complaints_checkBlock_perm he.push_block hbody)).append
      (hn.complaints_checkArms_perm he span hrest)

end

theorem SameMembers.complaints_checkRoutine_perm (hn : n.SameMembers n') {env env' : RoutineEnv}
    (he : env.SamePlace env') {body body' : List Stmt} (hbody : RoutineReordered body body') :
    (complaints (n.checkStmts env body).2).Perm (complaints (n'.checkStmts env' body').2) := by
  cases hbody with
  | mk hblock hperm =>
    exact (hn.complaints_checkBlock_perm he hblock).trans (n'.complaints_checkStmts_perm _ hperm)

end Names

/-! ## Programs -/

namespace Program

variable {p q : Program}

/-- Every complaint is made as often about the one program as about the other. -/
theorem Reordered.complaints_perm (h : p.Reordered q) (r : Registry) :
    (complaints (p.check r)).Perm (complaints (q.check r)) := by
  have hp := collects_declareSubroutines [] p.body
  have hq := collects_declareSubroutines [] q.body
  have hdeclared := h.body.declared_perm
  have hlabels := h.body.labelNames_perm
  have hn : Names.SameMembers ⟨r, p.symbols, (declareSubroutines [] p.body).1⟩
      ⟨r, q.symbols, (declareSubroutines [] q.body).1⟩ := by
    refine ⟨rfl, h.symbols, fun name ↦ ?_⟩
    simp only [hp.all, hq.all]
    exact contains_foldl_declareName hdeclared [] name
  have he : (declareLabels .start p.body).1.SamePlace (declareLabels .start q.body).1 :=
    Names.samePlace_declareLabels .entry hlabels
  simp only [check, complaints_append, hp.again, hq.again]
  refine (((repeats_perm hdeclared []).map _).append ?_).append
    (hn.complaints_checkRoutine_perm he h.body)
  rw [RoutineEnv.start, complaints_declareLabels, complaints_declareLabels]
  exact (repeats_perm hlabels []).map _

theorem map_analyze (r : Registry) (source : SourceText) (p : Program) :
    (p.analyze r source).map (fun d ↦ (d.code, d.message)) =
      (complaints (p.check r)).map fun c ↦ (c.code, c.message) := by
  rw [analyze, complaints, List.map_map, List.map_map]
  rfl

end Program

/-- **The order of statements does not matter.** The environment behind a statement is the one in
front of it, wherever the check of the statement stops. So what is found in statements is found in
each of them on its own, and putting the statements of a program or of its subroutines in another
order changes neither how much is found nor how often each code and message is. A report keeps the
first findings and counts them all. -/
theorem analyze_ignores_order :
    (∀ (n : Names) (env : RoutineEnv) (s : Stmt), (n.checkStmt env s).1 = env) ∧
    (∀ (n : Names) (env : RoutineEnv) (body body' : List Stmt),
      (n.checkStmts env (body ++ body')).2 =
        (n.checkStmts env body).2 ++ (n.checkStmts env body').2) ∧
    (∀ {p q : Program}, p.Reordered q → ∀ (r : Registry) (source : SourceText),
      ((p.analyze r source).map fun d ↦ (d.code, d.message)).Perm
        ((q.analyze r source).map fun d ↦ (d.code, d.message)) ∧
      (Report.empty.pushAll (p.analyze r source)).total =
        (Report.empty.pushAll (q.analyze r source)).total) ∧
    ∀ found : List Diagnostic, (Report.empty.pushAll found).errors = found.take 20 ∧
      (Report.empty.pushAll found).total = found.length := by
  refine ⟨fun n env s ↦ Names.checkStmt_fst env s, fun n env body body' ↦ ?_,
    fun {p q} h r source ↦ ?_, fun found ↦ ⟨?_, ?_⟩⟩
  · rw [Names.checkStmts_snd, Names.checkStmts_snd, Names.checkStmts_snd, List.flatMap_append]
  · have hperm : ((p.analyze r source).map fun d ↦ (d.code, d.message)).Perm
        ((q.analyze r source).map fun d ↦ (d.code, d.message)) := by
      rw [Program.map_analyze, Program.map_analyze]
      exact (h.complaints_perm r).map _
    refine ⟨hperm, ?_⟩
    have hlength := hperm.length_eq
    rw [List.length_map, List.length_map] at hlength
    rw [Report.total_pushAll, Report.total_pushAll, hlength]
  · rw [Report.errors_pushAll _ _ (Nat.zero_le _)]
    rfl
  · rw [Report.total_pushAll]
    exact Nat.zero_add _

/-- A program with uses before declarations, labels and subroutines that are declared twice, and
subroutines where none may be, around a subroutine with the statements `tidy`. -/
def Program.tangle (tidy : List Stmt) : Program where
  symbols := ⟨["x"]⟩
  body :=
    [.goto "end" default,
      .sub "tidy" tidy default,
      .while (.variable "y") [.sub "tidy" [] default, .label "end" default] default,
      .callSub "inner" default,
      .label "end" default]

theorem Program.tangle_analyze_perm :
    let tidy : List Stmt := [.goto "again" default, .label "again" default, .label "again" default,
      .sub "inner" [.goto "nowhere" default] default, .goto "end" default]
    let p := tangle tidy
    let q : Program := ⟨p.symbols, (tangle tidy.reverse).body.reverse⟩
    p.Reordered q ∧
      ((p.analyze .empty default).map fun d ↦ (d.code, d.message)).Perm
        ((q.analyze .empty default).map fun d ↦ (d.code, d.message)) ∧
      (p.check .empty).map (·.complaint.code) = [304, 303, 401, 301, 300, 401, 400] ∧
      (q.check .empty).map (·.complaint.code) = [304, 300, 401, 400, 303, 301, 401] ∧
      (Names.checkStmt ⟨.empty, p.symbols, []⟩ ⟨[.block, .entry], [["end"]]⟩
        (.sub "inner" tidy default)).1 = ⟨[.block, .entry], [["end"]]⟩ := by
  intro tidy p q
  have htidy : RoutineReordered tidy tidy.reverse := .of_perm (List.reverse_perm tidy).symm
  have hreordered : p.Reordered q :=
    ⟨rfl, .mk (.cons (.refl _) (.cons (.sub _ _ htidy) (.refl _))) (List.reverse_perm _).symm⟩
  exact ⟨hreordered, (analyze_ignores_order.2.2.1 hreordered .empty default).1, by decide,
    by decide, analyze_ignores_order.1 _ _ _⟩

end ScriptWasm
