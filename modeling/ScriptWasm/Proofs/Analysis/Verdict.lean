import ScriptWasm.Analysis.Check

/-!
# What a clean check says

The checker walks once over a program and reports whatever it meets. The two walks of the emitter
split that work: the first looks up library members and declares labels and subroutines, the second
looks up variables, labels and subroutines. So what a clean check says is stated in two parts, in
the words of neither walk. A statement is *admitted* where it stands if its library members are
there and fit, and if it may declare what it declares; it is *resolved* if every variable, label and
subroutine that it names is declared. The checker has nothing to report exactly if both hold.

Where a statement stands matters to the checker only through the innermost scope and the labels of
the routine, and every statement hands on the environment that it was given.
-/

namespace ScriptWasm

/-! ## Declarations of a routine -/

namespace Stmt

def labelName? : Stmt → Option String
  | .label name _ => some name
  | _ => none

def subroutine? : Stmt → Option (String × List Stmt)
  | .sub name body _ => some (name, body)
  | _ => none

end Stmt

/-- The labels that a routine declares. Labels in blocks are not among them. -/
def labelNames (body : List Stmt) : List String := body.filterMap Stmt.labelName?

/-- The subroutines that are declared at the top of a body. -/
def topSubroutines (body : List Stmt) : List (String × List Stmt) :=
  body.filterMap Stmt.subroutine?

/-- Their names. -/
def subroutineNames (body : List Stmt) : List String := (topSubroutines body).map Prod.fst

/-! ## Admitted -/

namespace Registry

variable (r : Registry)

/-- A method that takes so many arguments, and has a value if one is needed. -/
def AdmitsCall (type method : String) (given : Nat) (needsValue : Bool) : Prop :=
  ∃ m, r.method? type method = some m ∧ m.paramCount = given ∧ (needsValue → m.returnsValue)

def AdmitsGetter (type name : String) : Prop :=
  ∃ p, r.property? type name = some p ∧ p.getter?.isSome

def AdmitsSetter (type name : String) : Prop :=
  ∃ p, r.property? type name = some p ∧ p.setter?.isSome

mutual

/-- The library members in an expression are there, and are used as they can be. -/
def AdmitsExpr : Expr → Prop
  | .number _ => True
  | .text _ => True
  | .variable _ => True
  | .index _ indices => AdmitsExprs indices
  | .property type name => r.AdmitsGetter type name
  | .call type method args => r.AdmitsCall type method args.length true ∧ AdmitsExprs args
  | .binary _ left right => AdmitsExpr left ∧ AdmitsExpr right
  | .negate operand => AdmitsExpr operand

def AdmitsExprs : List Expr → Prop
  | [] => True
  | e :: rest => AdmitsExpr e ∧ AdmitsExprs rest

end

def AdmitsAssign (value : Expr) : Target → Prop
  | .variable _ => r.AdmitsExpr value
  | .index _ indices => r.AdmitsExprs indices ∧ r.AdmitsExpr value
  | .property type name => r.AdmitsSetter type name ∧ r.AdmitsExpr value
  | .event type name => ∃ e, r.event? type name = some e

mutual

/-- The library members in a statement are there, and what it declares may be declared in a scope of
the given kind. -/
def AdmitsStmt (kind : ScopeKind) : Stmt → Prop
  | .assign target value _ => r.AdmitsAssign value target
  | .call type method args _ => r.AdmitsCall type method args.length false ∧ r.AdmitsExprs args
  | .cond condition body arms otherwise _ =>
    r.AdmitsExpr condition ∧ AdmitsStmts .block body ∧ AdmitsArms arms ∧
      AdmitsStmts .block otherwise
  | .while condition body _ => r.AdmitsExpr condition ∧ AdmitsStmts .block body
  | .for _ start stop step body _ =>
    r.AdmitsExpr start ∧ r.AdmitsExpr stop ∧ r.AdmitsExprs step.toList ∧ AdmitsStmts .block body
  | .label _ _ => kind ≠ .block
  | .sub _ body _ => kind = .entry ∧ AdmitsStmts .subroutine body
  | .goto _ _ => True
  | .callSub _ _ => True
  | .empty _ => True

def AdmitsStmts (kind : ScopeKind) : List Stmt → Prop
  | [] => True
  | s :: rest => AdmitsStmt kind s ∧ AdmitsStmts kind rest

def AdmitsArms : List Arm → Prop
  | [] => True
  | .mk condition body :: rest =>
    r.AdmitsExpr condition ∧ AdmitsStmts .block body ∧ AdmitsArms rest

end

end Registry

/-! ## Resolved -/

namespace Names

variable (n : Names)

mutual

def ResolvesExpr : Expr → Prop
  | .number _ => True
  | .text _ => True
  | .variable name => name ∈ n.symbols.names
  | .index array indices => array ∈ n.symbols.names ∧ ResolvesExprs indices
  | .property _ _ => True
  | .call _ _ args => ResolvesExprs args
  | .binary _ left right => ResolvesExpr left ∧ ResolvesExpr right
  | .negate operand => ResolvesExpr operand

def ResolvesExprs : List Expr → Prop
  | [] => True
  | e :: rest => ResolvesExpr e ∧ ResolvesExprs rest

end

def ResolvesAssign (value : Expr) : Target → Prop
  | .variable name => name ∈ n.symbols.names ∧ n.ResolvesExpr value
  | .index array indices =>
    array ∈ n.symbols.names ∧ indices ≠ [] ∧ n.ResolvesExprs indices ∧ n.ResolvesExpr value
  | .property _ _ => n.ResolvesExpr value
  | .event _ _ => ∃ name ∈ n.subroutines, value = .variable name

mutual

/-- The names in a statement are declared; `labels` are those of the routine. What a subroutine does
is a matter of its own. -/
def ResolvesStmt (labels : List String) : Stmt → Prop
  | .assign target value _ => n.ResolvesAssign value target
  | .call _ _ args _ => n.ResolvesExprs args
  | .cond condition body arms otherwise _ =>
    n.ResolvesExpr condition ∧ ResolvesStmts labels body ∧ ResolvesArms labels arms ∧
      ResolvesStmts labels otherwise
  | .while condition body _ => n.ResolvesExpr condition ∧ ResolvesStmts labels body
  | .for name start stop step body _ =>
    name ∈ n.symbols.names ∧ n.ResolvesExpr start ∧ n.ResolvesExpr stop ∧
      n.ResolvesExprs step.toList ∧ ResolvesStmts labels body
  | .goto name _ => name ∈ labels
  | .callSub name _ => name ∈ n.subroutines
  | .label _ _ => True
  | .sub _ _ _ => True
  | .empty _ => True

def ResolvesStmts (labels : List String) : List Stmt → Prop
  | [] => True
  | s :: rest => ResolvesStmt labels s ∧ ResolvesStmts labels rest

def ResolvesArms (labels : List String) : List Arm → Prop
  | [] => True
  | .mk condition body :: rest =>
    n.ResolvesExpr condition ∧ ResolvesStmts labels body ∧ ResolvesArms labels rest

end

/-- A routine declares no label twice, and its statements are resolved by the labels it declares. -/
def ResolvesRoutine (body : List Stmt) : Prop :=
  (labelNames body).Nodup ∧ n.ResolvesStmts (labelNames body) body

end Names

/-! ## Checking names and expressions -/

namespace Names

variable {n : Names}

theorem checkVariable_eq_nil_iff {name : String} :
    n.checkVariable name = [] ↔ name ∈ n.symbols.names := by
  simp [checkVariable, SymbolTable.contains]

/-- A member that is found is a member of a type that is found, so it is enough to look for the
member. -/
theorem checkMember_eq_nil_iff {α : Type} {kind : MemberKind} {type name : String}
    {find : TypeDescriptor → Option α} {check : α → List Complaint} :
    n.checkMember kind type name ((n.registry.get? type).bind find) check = [] ↔
      ∃ a, (n.registry.get? type).bind find = some a ∧ check a = [] := by
  simp only [checkMember]
  cases ht : n.registry.get? type with
  | none => simp
  | some t =>
    rw [Option.bind_some]
    cases hm : find t with
    | none => simp
    | some a => simp

theorem checkCall_eq_nil_iff {type method : String} {given : Nat} {needsValue : Bool} :
    n.checkCall type method given needsValue = [] ↔
      n.registry.AdmitsCall type method given needsValue := by
  rw [checkCall, Registry.method?, checkMember_eq_nil_iff]
  refine exists_congr fun m ↦ and_congr_right fun _ ↦ ?_
  cases needsValue <;> simp

theorem checkGetter_eq_nil_iff {type name : String} :
    n.checkGetter type name = [] ↔ n.registry.AdmitsGetter type name := by
  rw [checkGetter, Registry.property?, checkMember_eq_nil_iff]
  refine exists_congr fun p ↦ and_congr_right fun _ ↦ ?_
  cases p.getter? <;> simp

theorem checkSetter_eq_nil_iff {type name : String} :
    n.checkSetter type name = [] ↔ n.registry.AdmitsSetter type name := by
  rw [checkSetter, Registry.property?, checkMember_eq_nil_iff]
  refine exists_congr fun p ↦ and_congr_right fun _ ↦ ?_
  cases p.setter? <;> simp

theorem checkEvent_eq_nil_iff {type name : String} :
    n.checkEvent type name = [] ↔ ∃ e, n.registry.event? type name = some e := by
  rw [checkEvent, Registry.event?, checkMember_eq_nil_iff]
  simp

theorem checkHandler_eq_nil_iff {type event : String} {value : Expr} :
    n.checkHandler type event value = [] ↔ ∃ name ∈ n.subroutines, value = .variable name := by
  cases value <;> simp [checkHandler]

mutual

theorem checkExpr_eq_nil_iff (e : Expr) :
    n.checkExpr e = [] ↔ n.registry.AdmitsExpr e ∧ n.ResolvesExpr e := by
  match e with
  | .number x => simp [checkExpr, Registry.AdmitsExpr, ResolvesExpr]
  | .text s => simp [checkExpr, Registry.AdmitsExpr, ResolvesExpr]
  | .variable name =>
    rw [checkExpr, checkVariable_eq_nil_iff, Registry.AdmitsExpr, ResolvesExpr, true_and]
  | .index array indices =>
    rw [checkExpr, List.append_eq_nil_iff, checkVariable_eq_nil_iff, checkExprs_eq_nil_iff,
      Registry.AdmitsExpr, ResolvesExpr, and_left_comm]
  | .property type name =>
    rw [checkExpr, checkGetter_eq_nil_iff, Registry.AdmitsExpr, ResolvesExpr, and_true]
  | .call type method args =>
    rw [checkExpr, List.append_eq_nil_iff, checkCall_eq_nil_iff, checkExprs_eq_nil_iff,
      Registry.AdmitsExpr, ResolvesExpr, and_assoc]
  | .binary op left right =>
    rw [checkExpr, List.append_eq_nil_iff, checkExpr_eq_nil_iff left, checkExpr_eq_nil_iff right,
      Registry.AdmitsExpr, ResolvesExpr, and_and_and_comm]
  | .negate operand =>
    rw [checkExpr, checkExpr_eq_nil_iff operand, Registry.AdmitsExpr, ResolvesExpr]

theorem checkExprs_eq_nil_iff (es : List Expr) :
    n.checkExprs es = [] ↔ n.registry.AdmitsExprs es ∧ n.ResolvesExprs es := by
  match es with
  | [] => simp [checkExprs, Registry.AdmitsExprs, ResolvesExprs]
  | e :: rest =>
    rw [checkExprs, List.append_eq_nil_iff, checkExpr_eq_nil_iff e, checkExprs_eq_nil_iff rest,
      Registry.AdmitsExprs, ResolvesExprs, and_and_and_comm]

end

theorem checkAssign_eq_nil_iff {value : Expr} {target : Target} :
    n.checkAssign value target = [] ↔
      n.registry.AdmitsAssign value target ∧ n.ResolvesAssign value target := by
  match target with
  | .variable name =>
    rw [checkAssign, List.append_eq_nil_iff, checkVariable_eq_nil_iff, checkExpr_eq_nil_iff,
      Registry.AdmitsAssign, ResolvesAssign, and_left_comm]
  | .index array indices =>
    simp only [checkAssign, List.append_eq_nil_iff, checkVariable_eq_nil_iff,
      checkExprs_eq_nil_iff, checkExpr_eq_nil_iff, Registry.AdmitsAssign, ResolvesAssign]
    cases indices with
    | nil => simp
    | cons i rest => simp [and_assoc, and_left_comm]
  | .property type name =>
    rw [checkAssign, List.append_eq_nil_iff, checkSetter_eq_nil_iff, checkExpr_eq_nil_iff,
      Registry.AdmitsAssign, ResolvesAssign, and_assoc]
  | .event type name =>
    rw [checkAssign, List.append_eq_nil_iff, checkEvent_eq_nil_iff, checkHandler_eq_nil_iff,
      Registry.AdmitsAssign, ResolvesAssign]

end Names

/-! ## Environments -/

namespace RoutineEnv

/-- The labels that can be reached. -/
def reachable (env : RoutineEnv) : List String := env.labels.headD []

theorem hasLabel_iff {env : RoutineEnv} {name : String} :
    env.hasLabel name = true ↔ name ∈ env.reachable := by
  rw [hasLabel, List.contains_iff_mem, reachable]

@[simp] theorem current_push (env : RoutineEnv) (kind : ScopeKind) :
    (env.push kind).current = kind := rfl

@[simp] theorem reachable_push_block (env : RoutineEnv) :
    (env.push .block).reachable = env.reachable := rfl

theorem push_block_ne_entry (env : RoutineEnv) : (env.push .block).current ≠ .entry := by
  simp

@[simp] theorem pop_push_block (env : RoutineEnv) : (env.push .block).pop = env := rfl

theorem inBlock_iff {env : RoutineEnv} : env.inBlock = true ↔ env.current = .block := by
  simp [inBlock]

end RoutineEnv

/-! ## Declaring labels -/

@[simp] theorem labelNames_nil : labelNames [] = [] := rfl

@[simp] theorem labelNames_label (name : String) (span : Span) (rest : List Stmt) :
    labelNames (.label name span :: rest) = name :: labelNames rest := rfl

theorem labelNames_cons_of_none {s : Stmt} (h : s.labelName? = none) (rest : List Stmt) :
    labelNames (s :: rest) = labelNames rest := List.filterMap_cons_none h

theorem labelNames_cons (s : Stmt) (rest : List Stmt) :
    labelNames (s :: rest) = s.labelName?.toList ++ labelNames rest := by
  cases h : s.labelName? with
  | none => exact labelNames_cons_of_none h rest
  | some name => exact List.filterMap_cons_some h

theorem Stmt.eq_label {s : Stmt} {name : String} (h : s.labelName? = some name) :
    ∃ span, s = .label name span := by
  cases s with
  | label l span => exact ⟨span, by rw [Option.some.inj h]⟩
  | _ => nomatch h

@[simp] theorem topSubroutines_sub (name : String) (body : List Stmt) (span : Span)
    (rest : List Stmt) :
    topSubroutines (.sub name body span :: rest) = (name, body) :: topSubroutines rest := rfl

theorem topSubroutines_cons_of_none {s : Stmt} (h : s.subroutine? = none) (rest : List Stmt) :
    topSubroutines (s :: rest) = topSubroutines rest := List.filterMap_cons_none h

theorem Stmt.eq_sub {s : Stmt} {sub : String × List Stmt} (h : s.subroutine? = some sub) :
    ∃ span, s = .sub sub.1 sub.2 span := by
  cases s with
  | sub name body span => exact ⟨span, by rw [← Option.some.inj h]⟩
  | _ => nomatch h

theorem declareLabels_cons_of_none {s : Stmt} (h : s.labelName? = none) (env : RoutineEnv)
    (rest : List Stmt) : declareLabels env (s :: rest) = declareLabels env rest := by
  cases s with
  | label l span => nomatch h
  | _ => rfl

/-- A name that is declared behind others. A name that is known is declared once. -/
def declareName (names : List String) (name : String) : List String :=
  if names.contains name then names else names ++ [name]

theorem declareName_of_notMem {names : List String} {name : String} (h : name ∉ names) :
    declareName names name = names ++ [name] :=
  if_neg (by rwa [List.contains_iff_mem])

/-- Names that are all new are declared in their order. -/
theorem foldl_declareName {new : List String} (hnew : new.Nodup) :
    ∀ names : List String, (∀ l ∈ new, l ∉ names) → new.foldl declareName names = names ++ new := by
  induction new with
  | nil => simp
  | cons l new ih =>
    intro names hdisj
    obtain ⟨hl, hnew⟩ := List.nodup_cons.mp hnew
    rw [List.foldl_cons, declareName_of_notMem (hdisj l List.mem_cons_self), ih hnew]
    · rw [List.append_assoc, List.singleton_append]
    · intro x hx
      rw [List.mem_append, List.mem_singleton, not_or]
      exact ⟨hdisj x (List.mem_cons_of_mem _ hx), fun h ↦ hl (h ▸ hx)⟩

theorem RoutineEnv.defineLabel_cons (scopes : List ScopeKind) (names : List String)
    (rest : List (List String)) (name : String) :
    (RoutineEnv.mk scopes (names :: rest)).defineLabel name =
      ⟨scopes, declareName names name :: rest⟩ := by
  simp only [defineLabel, declareName]
  split <;> rfl

/-- Declaring labels touches the labels of the innermost routine only. -/
theorem declareLabels_fst (scopes : List ScopeKind) (rest : List (List String)) (body : List Stmt) :
    ∀ names : List String, (declareLabels ⟨scopes, names :: rest⟩ body).1 =
      ⟨scopes, (labelNames body).foldl declareName names :: rest⟩ := by
  induction body with
  | nil => exact fun _ ↦ rfl
  | cons s body ih =>
    intro names
    cases hs : s.labelName? with
    | none =>
      rw [declareLabels_cons_of_none hs, labelNames_cons_of_none hs]
      exact ih names
    | some name =>
      obtain ⟨span, rfl⟩ := Stmt.eq_label hs
      simp only [declareLabels, RoutineEnv.defineLabel_cons, ih, labelNames_label, List.foldl_cons]

/-- No label is reported exactly if none is declared twice. -/
theorem declareLabels_snd_eq_nil_iff (scopes : List ScopeKind) (rest : List (List String))
    (body : List Stmt) :
    ∀ names : List String, (declareLabels ⟨scopes, names :: rest⟩ body).2 = [] ↔
      (labelNames body).Nodup ∧ ∀ l ∈ labelNames body, l ∉ names := by
  induction body with
  | nil => simp [declareLabels]
  | cons s body ih =>
    intro names
    cases hs : s.labelName? with
    | none =>
      rw [declareLabels_cons_of_none hs, labelNames_cons_of_none hs]
      exact ih names
    | some name =>
      obtain ⟨span, rfl⟩ := Stmt.eq_label hs
      simp only [declareLabels, RoutineEnv.defineLabel_cons, List.append_eq_nil_iff, ih,
        RoutineEnv.hasLabel_iff, RoutineEnv.reachable, List.headD_cons, labelNames_label,
        List.nodup_cons]
      by_cases hc : name ∈ names
      · simp [hc, atSpan]
      · simp only [hc, if_false, true_and, declareName_of_notMem hc, List.mem_append, List.mem_cons]
        grind

/-! ## Checking statements -/

theorem atSpan_eq_nil_iff {span : Span} {cs : List Complaint} : atSpan span cs = [] ↔ cs = [] := by
  rw [atSpan, List.map_eq_nil_iff]

namespace Names

variable {n : Names}

mutual

theorem checkStmt_fst (env : RoutineEnv) (s : Stmt) : (n.checkStmt env s).1 = env := by
  match s with
  | .cond condition body arms otherwise span =>
    simp only [checkStmt, checkStmts_fst, checkArms_fst, RoutineEnv.pop_push_block]
  | .while condition body span =>
    simp only [checkStmt, checkStmts_fst, RoutineEnv.pop_push_block]
  | .for name start stop step body span =>
    simp only [checkStmt, checkStmts_fst, RoutineEnv.pop_push_block]
  | .sub name body span =>
    simp only [checkStmt]
    split
    · rw [checkStmts_fst, RoutineEnv.push, if_pos rfl, declareLabels_fst]
      rfl
    · rfl
  | .assign .. => rfl
  | .call .. => rfl
  | .goto .. => rfl
  | .label .. => rfl
  | .callSub .. => rfl
  | .empty .. => rfl

theorem checkStmts_fst (env : RoutineEnv) (body : List Stmt) : (n.checkStmts env body).1 = env := by
  match body with
  | [] => rfl
  | s :: rest => simp only [checkStmts, checkStmt_fst env s, checkStmts_fst env rest]

theorem checkArms_fst (env : RoutineEnv) (span : Span) (arms : List Arm) :
    (n.checkArms env span arms).1 = env := by
  match arms with
  | [] => rfl
  | .mk condition body :: rest =>
    simp only [checkArms, checkStmts_fst, RoutineEnv.pop_push_block, checkArms_fst env span rest]

end

mutual

/-- The checker has nothing to say about a statement exactly if it is admitted and resolved where it
stands. A subroutine that stands where it may is not covered: its body has labels of its own. -/
theorem checkStmt_snd_eq_nil_iff (env : RoutineEnv) (s : Stmt)
    (h : env.current = .entry → s.subroutine? = none) :
    (n.checkStmt env s).2 = [] ↔
      n.registry.AdmitsStmt env.current s ∧ n.ResolvesStmt env.reachable s := by
  match s with
  | .assign target value span =>
    rw [checkStmt, atSpan_eq_nil_iff, checkAssign_eq_nil_iff, Registry.AdmitsStmt, ResolvesStmt]
  | .call type method args span =>
    rw [checkStmt, atSpan_eq_nil_iff, List.append_eq_nil_iff, checkCall_eq_nil_iff,
      checkExprs_eq_nil_iff, Registry.AdmitsStmt, ResolvesStmt, and_assoc]
  | .cond condition body arms otherwise span =>
    simp only [checkStmt, checkStmts_fst, checkArms_fst, RoutineEnv.pop_push_block,
      List.append_eq_nil_iff, atSpan_eq_nil_iff, checkExpr_eq_nil_iff,
      checkStmts_snd_eq_nil_iff (env.push .block) body env.push_block_ne_entry,
      checkArms_snd_eq_nil_iff env span arms,
      checkStmts_snd_eq_nil_iff (env.push .block) otherwise env.push_block_ne_entry,
      RoutineEnv.current_push, RoutineEnv.reachable_push_block, Registry.AdmitsStmt, ResolvesStmt]
    grind
  | .while condition body span =>
    simp only [checkStmt, List.append_eq_nil_iff, atSpan_eq_nil_iff, checkExpr_eq_nil_iff,
      checkStmts_snd_eq_nil_iff (env.push .block) body env.push_block_ne_entry,
      RoutineEnv.current_push, RoutineEnv.reachable_push_block, Registry.AdmitsStmt, ResolvesStmt]
    grind
  | .for name start stop step body span =>
    simp only [checkStmt, List.append_eq_nil_iff, atSpan_eq_nil_iff, checkVariable_eq_nil_iff,
      checkExpr_eq_nil_iff, checkExprs_eq_nil_iff,
      checkStmts_snd_eq_nil_iff (env.push .block) body env.push_block_ne_entry,
      RoutineEnv.current_push, RoutineEnv.reachable_push_block, Registry.AdmitsStmt, ResolvesStmt]
    grind
  | .goto name span =>
    simp only [checkStmt, RoutineEnv.hasLabel_iff, Registry.AdmitsStmt, ResolvesStmt, true_and]
    by_cases hl : name ∈ env.reachable <;> simp [hl, atSpan]
  | .label name span =>
    simp only [checkStmt, RoutineEnv.inBlock_iff, Registry.AdmitsStmt, ResolvesStmt, and_true]
    by_cases hb : env.current = .block <;> simp [hb, atSpan]
  | .sub name body span =>
    have hk : env.current ≠ .entry := fun hk ↦ nomatch h hk
    simp [checkStmt, Registry.AdmitsStmt, hk, atSpan]
  | .callSub name span =>
    simp only [checkStmt, Registry.AdmitsStmt, ResolvesStmt, true_and]
    by_cases hs : name ∈ n.subroutines <;> simp [hs, atSpan]
  | .empty span => simp [checkStmt, Registry.AdmitsStmt, ResolvesStmt]

theorem checkStmts_snd_eq_nil_iff (env : RoutineEnv) (body : List Stmt)
    (h : env.current ≠ .entry) :
    (n.checkStmts env body).2 = [] ↔
      n.registry.AdmitsStmts env.current body ∧ n.ResolvesStmts env.reachable body := by
  match body with
  | [] => simp [checkStmts, Registry.AdmitsStmts, ResolvesStmts]
  | s :: rest =>
    simp only [checkStmts, checkStmt_fst, List.append_eq_nil_iff,
      checkStmt_snd_eq_nil_iff env s fun hk ↦ absurd hk h, checkStmts_snd_eq_nil_iff env rest h,
      Registry.AdmitsStmts, ResolvesStmts]
    grind

theorem checkArms_snd_eq_nil_iff (env : RoutineEnv) (span : Span) (arms : List Arm) :
    (n.checkArms env span arms).2 = [] ↔
      n.registry.AdmitsArms arms ∧ n.ResolvesArms env.reachable arms := by
  match arms with
  | [] => simp [checkArms, Registry.AdmitsArms, ResolvesArms]
  | .mk condition body :: rest =>
    simp only [checkArms, checkStmts_fst, RoutineEnv.pop_push_block, List.append_eq_nil_iff,
      atSpan_eq_nil_iff, checkExpr_eq_nil_iff,
      checkStmts_snd_eq_nil_iff (env.push .block) body env.push_block_ne_entry,
      RoutineEnv.current_push, RoutineEnv.reachable_push_block,
      checkArms_snd_eq_nil_iff env span rest, Registry.AdmitsArms, ResolvesArms]
    grind

end

/-- Inside of a subroutine the checker starts with the labels that the subroutine declares. -/
theorem checkRoutine_eq_nil_iff (scopes : List ScopeKind) (rest : List (List String))
    (body : List Stmt) :
    (declareLabels ⟨.subroutine :: scopes, [] :: rest⟩ body).2 = [] ∧
        (n.checkStmts (declareLabels ⟨.subroutine :: scopes, [] :: rest⟩ body).1 body).2 = [] ↔
      n.registry.AdmitsStmts .subroutine body ∧ n.ResolvesRoutine body := by
  rw [declareLabels_snd_eq_nil_iff, declareLabels_fst, ResolvesRoutine, and_left_comm]
  simp only [List.not_mem_nil, not_false_eq_true, implies_true, and_true]
  refine and_congr_right fun hnodup ↦ ?_
  rw [foldl_declareName hnodup [] (by simp), List.nil_append]
  exact checkStmts_snd_eq_nil_iff ⟨.subroutine :: scopes, labelNames body :: rest⟩ body nofun

/-- At the top of a program the bodies of subroutines are checked as routines of their own. -/
theorem checkEntry_snd_eq_nil_iff (env : RoutineEnv) (body : List Stmt)
    (h : env.current = .entry) :
    (n.checkStmts env body).2 = [] ↔
      n.registry.AdmitsStmts .entry body ∧ n.ResolvesStmts env.reachable body ∧
        ∀ s ∈ topSubroutines body, n.ResolvesRoutine s.2 := by
  induction body with
  | nil => simp [checkStmts, Registry.AdmitsStmts, ResolvesStmts, topSubroutines]
  | cons s rest ih =>
    simp only [checkStmts, checkStmt_fst, List.append_eq_nil_iff, ih, Registry.AdmitsStmts,
      ResolvesStmts]
    cases hs : s.subroutine? with
    | none =>
      rw [checkStmt_snd_eq_nil_iff env s fun _ ↦ hs, h, topSubroutines_cons_of_none hs]
      grind
    | some sub =>
      obtain ⟨span, rfl⟩ := Stmt.eq_sub hs
      simp only [checkStmt, if_pos h, List.append_eq_nil_iff, topSubroutines_sub,
        List.forall_mem_cons, Registry.AdmitsStmt, ResolvesStmt, true_and]
      rw [RoutineEnv.push, if_pos rfl, checkRoutine_eq_nil_iff]
      grind

end Names

/-! ## Declaring subroutines -/

mutual

/-- What is admitted elsewhere than at the top of a program declares no subroutine. -/
theorem declareSubroutine_eq {r : Registry} {kind : ScopeKind} {s : Stmt}
    (ha : r.AdmitsStmt kind s) (h : kind = .entry → s.subroutine? = none) (names : List String) :
    declareSubroutine names s = (names, []) := by
  match s with
  | .cond condition body arms otherwise span =>
    rw [Registry.AdmitsStmt] at ha
    simp [declareSubroutine, declareSubroutines_eq ha.2.1, declareArmSubroutines_eq ha.2.2.1,
      declareSubroutines_eq ha.2.2.2]
  | .while condition body span =>
    rw [Registry.AdmitsStmt] at ha
    rw [declareSubroutine, declareSubroutines_eq ha.2 nofun]
  | .for name start stop step body span =>
    rw [Registry.AdmitsStmt] at ha
    rw [declareSubroutine, declareSubroutines_eq ha.2.2.2 nofun]
  | .sub name body span =>
    rw [Registry.AdmitsStmt] at ha
    nomatch h ha.1
  | .assign .. => rfl
  | .call .. => rfl
  | .goto .. => rfl
  | .label .. => rfl
  | .callSub .. => rfl
  | .empty .. => rfl

theorem declareSubroutines_eq {r : Registry} {kind : ScopeKind} {body : List Stmt}
    (ha : r.AdmitsStmts kind body) (h : kind ≠ .entry) (names : List String) :
    declareSubroutines names body = (names, []) := by
  match body with
  | [] => rfl
  | s :: rest =>
    rw [Registry.AdmitsStmts] at ha
    simp [declareSubroutines, declareSubroutine_eq ha.1 fun hk ↦ absurd hk h,
      declareSubroutines_eq ha.2 h]

theorem declareArmSubroutines_eq {r : Registry} {arms : List Arm} (ha : r.AdmitsArms arms)
    (names : List String) : declareArmSubroutines names arms = (names, []) := by
  match arms with
  | [] => rfl
  | .mk condition body :: rest =>
    rw [Registry.AdmitsArms] at ha
    simp [declareArmSubroutines, declareSubroutines_eq ha.2.1, declareArmSubroutines_eq ha.2.2]

end

theorem declareSubroutine_sub {r : Registry} {name : String} {body : List Stmt} {span : Span}
    (ha : r.AdmitsStmt .entry (.sub name body span)) (names : List String) :
    declareSubroutine names (.sub name body span) =
      (declareName names name,
        if names.contains name then atSpan span [.duplicateSubroutine name] else []) := by
  rw [Registry.AdmitsStmt] at ha
  simp only [declareSubroutine, declareSubroutines_eq ha.2 nofun, declareName, List.append_nil]

theorem declareSubroutines_fst {r : Registry} {body : List Stmt} (ha : r.AdmitsStmts .entry body) :
    ∀ names : List String,
      (declareSubroutines names body).1 = (subroutineNames body).foldl declareName names := by
  induction body with
  | nil => exact fun _ ↦ rfl
  | cons s rest ih =>
    intro names
    rw [Registry.AdmitsStmts] at ha
    cases hs : s.subroutine? with
    | none =>
      simp only [declareSubroutines, declareSubroutine_eq ha.1 fun _ ↦ hs, ih ha.2,
        subroutineNames, topSubroutines_cons_of_none hs]
    | some sub =>
      obtain ⟨span, rfl⟩ := Stmt.eq_sub hs
      simp only [declareSubroutines, declareSubroutine_sub ha.1, ih ha.2, subroutineNames,
        topSubroutines_sub, List.map_cons, List.foldl_cons]

/-- No subroutine is reported exactly if none is declared twice. -/
theorem declareSubroutines_snd_eq_nil_iff {r : Registry} {body : List Stmt}
    (ha : r.AdmitsStmts .entry body) :
    ∀ names : List String, (declareSubroutines names body).2 = [] ↔
      (subroutineNames body).Nodup ∧ ∀ l ∈ subroutineNames body, l ∉ names := by
  induction body with
  | nil => simp [declareSubroutines, subroutineNames, topSubroutines]
  | cons s rest ih =>
    intro names
    rw [Registry.AdmitsStmts] at ha
    cases hs : s.subroutine? with
    | none =>
      simp only [declareSubroutines, declareSubroutine_eq ha.1 fun _ ↦ hs, List.nil_append,
        ih ha.2, subroutineNames, topSubroutines_cons_of_none hs]
    | some sub =>
      obtain ⟨span, rfl⟩ := Stmt.eq_sub hs
      simp only [declareSubroutines, declareSubroutine_sub ha.1, List.append_eq_nil_iff, ih ha.2,
        subroutineNames, topSubroutines_sub, List.map_cons, List.nodup_cons]
      by_cases hc : sub.1 ∈ names
      · simp [hc, atSpan]
      · simp only [List.contains_iff_mem, hc, if_false, true_and, declareName_of_notMem hc,
          List.mem_append, List.mem_cons]
        grind

/-! ## Checking programs -/

namespace Program

/-- What the names in a program are looked up in. -/
def names (r : Registry) (p : Program) : Names := ⟨r, p.symbols, subroutineNames p.body⟩

/-- What a clean check says: subroutines have different names, all statements are admitted where
they stand, and every routine is resolved. -/
structure IsSound (r : Registry) (p : Program) : Prop where
  subroutines : (subroutineNames p.body).Nodup
  admitted : r.AdmitsStmts .entry p.body
  entry : (p.names r).ResolvesRoutine p.body
  others : ∀ s ∈ topSubroutines p.body, (p.names r).ResolvesRoutine s.2

theorem check_eq_nil_iff {r : Registry} {p : Program} : p.check r = [] ↔ p.IsSound r := by
  have hstart : (declareLabels .start p.body).1 =
      ⟨[.entry], [(labelNames p.body).foldl declareName []]⟩ := declareLabels_fst [.entry] [] _ []
  have hlabels : (declareLabels .start p.body).2 = [] ↔ (labelNames p.body).Nodup := by
    simp [RoutineEnv.start, declareLabels_snd_eq_nil_iff]
  simp only [check, List.append_eq_nil_iff, hlabels, hstart,
    Names.checkEntry_snd_eq_nil_iff ⟨[.entry], _⟩ p.body rfl, RoutineEnv.reachable,
    List.headD_cons]
  constructor
  · rintro ⟨⟨hsubs, hnodup⟩, ha, hentry, hothers⟩
    obtain ⟨hnames, -⟩ := (declareSubroutines_snd_eq_nil_iff ha []).mp hsubs
    rw [declareSubroutines_fst ha, foldl_declareName hnames [] (by simp), List.nil_append]
      at hentry hothers
    rw [foldl_declareName hnodup [] (by simp), List.nil_append] at hentry
    exact ⟨hnames, ha, ⟨hnodup, hentry⟩, hothers⟩
  · rintro ⟨hnames, ha, ⟨hnodup, hentry⟩, hothers⟩
    rw [declareSubroutines_snd_eq_nil_iff ha, declareSubroutines_fst ha,
      foldl_declareName hnames [] (by simp), foldl_declareName hnodup [] (by simp),
      List.nil_append, List.nil_append]
    exact ⟨⟨⟨hnames, by simp⟩, hnodup⟩, ha, hentry, hothers⟩

end Program

end ScriptWasm
