import ScriptWasm.Proofs.Emission.Alike
import ScriptWasm.Proofs.Emission.Description

/-!
# What is wrong does not depend on spellings and places

What is wrong with programs that are alike is reported in their own words and at their own places,
but it is the same thing in the same order. Together with what is emitted for them this says that
the names of library members can be spelled in any way.
-/

namespace ScriptWasm

/-- The codes of findings, in order. -/
def codes (found : List Finding) : List Nat := found.map (·.complaint.code)

@[simp] theorem codes_append (found found' : List Finding) :
    codes (found ++ found') = codes found ++ codes found' := List.map_append

@[simp] theorem codes_atSpan (span : Span) (complaints : List Complaint) :
    codes (atSpan span complaints) = complaints.map Complaint.code := by
  rw [codes, atSpan, List.map_map]
  rfl

namespace Names

variable (n : Names)

section Members

variable {type type' name name' : String} (htype : SameKey type type') (hname : SameKey name name')

include htype

theorem codes_checkMember {α : Type} {kind : MemberKind} {member : Option α}
    {check check' : α → List Complaint}
    (hcheck : ∀ a, (check a).map Complaint.code = (check' a).map Complaint.code) :
    (n.checkMember kind type name member check).map Complaint.code =
      (n.checkMember kind type' name' member check').map Complaint.code := by
  simp only [checkMember, n.registry.get?_congr htype]
  split
  · rfl
  · cases member with
    | none => rfl
    | some a => exact hcheck a

include hname

theorem codes_checkCall (given : Nat) (needsValue : Bool) :
    (n.checkCall type name given needsValue).map Complaint.code =
      (n.checkCall type' name' given needsValue).map Complaint.code := by
  rw [checkCall, checkCall, n.registry.method?_congr htype hname]
  refine n.codes_checkMember htype fun m ↦ ?_
  rw [List.map_append, List.map_append]
  congr 1 <;> split <;> rfl

theorem codes_checkGetter :
    (n.checkGetter type name).map Complaint.code =
      (n.checkGetter type' name').map Complaint.code := by
  rw [checkGetter, checkGetter, n.registry.property?_congr htype hname]
  refine n.codes_checkMember htype fun p ↦ ?_
  split <;> rfl

theorem codes_checkSetter :
    (n.checkSetter type name).map Complaint.code =
      (n.checkSetter type' name').map Complaint.code := by
  rw [checkSetter, checkSetter, n.registry.property?_congr htype hname]
  refine n.codes_checkMember htype fun p ↦ ?_
  split <;> rfl

theorem codes_checkEvent :
    (n.checkEvent type name).map Complaint.code =
      (n.checkEvent type' name').map Complaint.code := by
  rw [checkEvent, checkEvent, n.registry.event?_congr htype hname]
  exact n.codes_checkMember htype fun _ ↦ rfl

end Members

theorem codes_checkHandler {type type' name name' : String} {value value' : Expr}
    (hvalue : value.Alike value') :
    (n.checkHandler type name value).map Complaint.code =
      (n.checkHandler type' name' value').map Complaint.code := by
  match value, hvalue with
  | .variable handler, .variable _ =>
    rw [checkHandler, checkHandler]
    split <;> rfl
  | .number _, .number _ => rfl
  | .text _, .text _ => rfl
  | .index _ _, .index _ _ => rfl
  | .property _ _, .property _ _ => rfl
  | .call _ _ _, .call _ _ _ => rfl
  | .binary _ _ _, .binary _ _ _ => rfl
  | .negate _, .negate _ => rfl

mutual

theorem codes_checkExpr {e e' : Expr} (he : e.Alike e') :
    (n.checkExpr e).map Complaint.code = (n.checkExpr e').map Complaint.code := by
  match e, he with
  | .number _, .number _ => rfl
  | .text _, .text _ => rfl
  | .variable _, .variable _ => rfl
  | .index _ _, .index _ hindices =>
    rw [checkExpr, checkExpr, List.map_append, List.map_append, codes_checkExprs hindices]
  | .property _ _, .property htype hname =>
    rw [checkExpr, checkExpr]
    exact n.codes_checkGetter htype hname
  | .call _ _ _, .call htype hname hargs =>
    rw [checkExpr, checkExpr, List.map_append, List.map_append, codes_checkExprs hargs,
      n.codes_checkCall htype hname, hargs.length_eq]
  | .binary _ _ _, .binary _ hleft hright =>
    rw [checkExpr, checkExpr, List.map_append, List.map_append, codes_checkExpr hleft,
      codes_checkExpr hright]
  | .negate _, .negate hoperand =>
    rw [checkExpr, checkExpr]
    exact codes_checkExpr hoperand

theorem codes_checkExprs {es es' : List Expr} (hes : ExprsAlike es es') :
    (n.checkExprs es).map Complaint.code = (n.checkExprs es').map Complaint.code := by
  match es, hes with
  | [], .nil => rfl
  | e :: es, .cons he hes =>
    rw [checkExprs, checkExprs, List.map_append, List.map_append, codes_checkExpr he,
      codes_checkExprs hes]

end

theorem codes_checkAssign {value value' : Expr} {target target' : Target}
    (htarget : target.Alike target') (hvalue : value.Alike value') :
    (n.checkAssign value target).map Complaint.code =
      (n.checkAssign value' target').map Complaint.code := by
  match target, htarget with
  | .variable _, .variable _ =>
    rw [checkAssign, checkAssign, List.map_append, List.map_append, n.codes_checkExpr hvalue]
  | .index _ _, .index _ hindices =>
    simp only [checkAssign, List.map_append, n.codes_checkExprs hindices,
      n.codes_checkExpr hvalue, hindices.isEmpty_eq]
  | .property _ _, .property htype hname =>
    rw [checkAssign, checkAssign, List.map_append, List.map_append, n.codes_checkExpr hvalue,
      n.codes_checkSetter htype hname]
  | .event _ _, .event htype hname =>
    rw [checkAssign, checkAssign, List.map_append, List.map_append, n.codes_checkHandler hvalue,
      n.codes_checkEvent htype hname]

end Names

/-- Bodies that are alike define the same labels, with the same findings. -/
theorem declareLabels_alike {body body' : List Stmt} (hbody : StmtsAlike body body')
    (env : RoutineEnv) :
    (declareLabels env body).1 = (declareLabels env body').1 ∧
      codes (declareLabels env body).2 = codes (declareLabels env body').2 := by
  induction body generalizing body' env with
  | nil =>
    cases hbody with
    | nil => exact ⟨rfl, rfl⟩
  | cons s rest ih =>
    cases hbody with
    | cons hs hrest =>
      cases hlabel : s.labelName? with
      | none =>
        rw [declareLabels_cons_of_none hlabel,
          declareLabels_cons_of_none (hs.labelName?_eq ▸ hlabel)]
        exact ih hrest env
      | some name =>
        obtain ⟨span, rfl⟩ := Stmt.eq_label hlabel
        obtain ⟨span', rfl⟩ := Stmt.eq_label (hs.labelName?_eq ▸ hlabel)
        obtain ⟨henv, hcodes⟩ := ih hrest (env.defineLabel name)
        simp only [declareLabels, codes_append, henv, hcodes, true_and]
        split <;> rfl

mutual

/-- Statements that are alike declare the same subroutines, with the same findings. -/
theorem declareSubroutine_alike {s s' : Stmt} (hs : s.Alike s') (names : List String) :
    (declareSubroutine names s).1 = (declareSubroutine names s').1 ∧
      codes (declareSubroutine names s).2 = codes (declareSubroutine names s').2 := by
  match s, hs with
  | .sub name _ _, .sub _ hbody =>
    obtain ⟨hnames, hcodes⟩ := declareSubroutines_alike hbody
      (if names.contains name then names else names ++ [name])
    simp only [declareSubroutine, codes_append, hnames, hcodes, true_and]
    split <;> rfl
  | .cond _ body arms _ _, .cond _ hbody harms hotherwise =>
    obtain ⟨hnames₁, hcodes₁⟩ := declareSubroutines_alike hbody names
    obtain ⟨hnames₂, hcodes₂⟩ := declareArmSubroutines_alike harms (declareSubroutines names body).1
    obtain ⟨hnames₃, hcodes₃⟩ := declareSubroutines_alike hotherwise
      (declareArmSubroutines (declareSubroutines names body).1 arms).1
    rw [hnames₂, hnames₁] at hnames₃ hcodes₃
    rw [hnames₁] at hcodes₂ hnames₂
    simp only [declareSubroutine, codes_append, hnames₁, hcodes₁, hnames₂, hcodes₂, hnames₃,
      hcodes₃, and_self]
  | .while _ _ _, .while _ hbody => exact declareSubroutines_alike hbody names
  | .for _ _ _ _ _ _, .for _ _ _ _ hbody => exact declareSubroutines_alike hbody names
  | .assign _ _ _, .assign _ _ => exact ⟨rfl, rfl⟩
  | .call _ _ _ _, .call _ _ _ => exact ⟨rfl, rfl⟩
  | .goto _ _, .goto _ => exact ⟨rfl, rfl⟩
  | .label _ _, .label _ => exact ⟨rfl, rfl⟩
  | .callSub _ _, .callSub _ => exact ⟨rfl, rfl⟩
  | .empty _, .empty => exact ⟨rfl, rfl⟩

theorem declareSubroutines_alike {body body' : List Stmt} (hbody : StmtsAlike body body')
    (names : List String) :
    (declareSubroutines names body).1 = (declareSubroutines names body').1 ∧
      codes (declareSubroutines names body).2 = codes (declareSubroutines names body').2 := by
  match body, hbody with
  | [], .nil => exact ⟨rfl, rfl⟩
  | s :: rest, .cons hs hrest =>
    obtain ⟨hnames₁, hcodes₁⟩ := declareSubroutine_alike hs names
    obtain ⟨hnames₂, hcodes₂⟩ := declareSubroutines_alike hrest (declareSubroutine names s).1
    rw [hnames₁] at hnames₂ hcodes₂
    simp only [declareSubroutines, codes_append, hnames₁, hcodes₁, hnames₂, hcodes₂, and_self]

theorem declareArmSubroutines_alike {arms arms' : List Arm} (harms : ArmsAlike arms arms')
    (names : List String) :
    (declareArmSubroutines names arms).1 = (declareArmSubroutines names arms').1 ∧
      codes (declareArmSubroutines names arms).2 = codes (declareArmSubroutines names arms').2 := by
  match arms, harms with
  | [], .nil => exact ⟨rfl, rfl⟩
  | .mk _ body :: rest, .cons _ hbody hrest =>
    obtain ⟨hnames₁, hcodes₁⟩ := declareSubroutines_alike hbody names
    obtain ⟨hnames₂, hcodes₂⟩ := declareArmSubroutines_alike hrest (declareSubroutines names body).1
    rw [hnames₁] at hnames₂ hcodes₂
    simp only [declareArmSubroutines, codes_append, hnames₁, hcodes₁, hnames₂, hcodes₂, and_self]

end

namespace Names

variable (n : Names)

mutual

theorem codes_checkStmt {s s' : Stmt} (hs : s.Alike s') (env : RoutineEnv) :
    codes (n.checkStmt env s).2 = codes (n.checkStmt env s').2 := by
  match s, hs with
  | .assign _ _ _, .assign htarget hvalue =>
    simp only [checkStmt, codes_atSpan, n.codes_checkAssign htarget hvalue]
  | .call _ _ _ _, .call htype hname hargs =>
    simp only [checkStmt, codes_atSpan, List.map_append, n.codes_checkCall htype hname,
      n.codes_checkExprs hargs, hargs.length_eq]
  | .cond _ _ _ _ _, .cond hcondition hbody harms hotherwise =>
    simp only [checkStmt, checkStmts_fst, checkArms_fst, RoutineEnv.pop_push_block, codes_append,
      codes_atSpan, n.codes_checkExpr hcondition, codes_checkStmts hbody,
      codes_checkStmts hotherwise]
    exact congrArg (_ ++ · ++ _) (codes_checkArms harms env _ _)
  | .while _ _ _, .while hcondition hbody =>
    simp only [checkStmt, codes_append, codes_atSpan, n.codes_checkExpr hcondition,
      codes_checkStmts hbody]
  | .for _ _ _ _ _ _, .for _ hstart hstop hstep hbody =>
    simp only [checkStmt, codes_append, codes_atSpan, List.map_append, n.codes_checkExpr hstart,
      n.codes_checkExpr hstop, n.codes_checkExprs hstep, codes_checkStmts hbody]
  | .goto _ _, .goto _ =>
    simp only [checkStmt]
    split <;> rfl
  | .label _ _, .label _ =>
    simp only [checkStmt]
    split <;> rfl
  | .sub _ _ _, .sub _ hbody =>
    obtain ⟨henv, hcodes⟩ := declareLabels_alike hbody (env.push .subroutine)
    simp only [checkStmt]
    split
    · simp only [codes_append, hcodes, henv, codes_checkStmts hbody]
    · rfl
  | .callSub _ _, .callSub _ =>
    simp only [checkStmt]
    split <;> rfl
  | .empty _, .empty => rfl

theorem codes_checkStmts {body body' : List Stmt} (hbody : StmtsAlike body body')
    (env : RoutineEnv) :
    codes (n.checkStmts env body).2 = codes (n.checkStmts env body').2 := by
  match body, hbody with
  | [], .nil => rfl
  | s :: body, .cons hs hbody =>
    simp only [checkStmts, checkStmt_fst, codes_append, codes_checkStmt hs env,
      codes_checkStmts hbody env]

theorem codes_checkArms {arms arms' : List Arm} (harms : ArmsAlike arms arms') (env : RoutineEnv)
    (span span' : Span) :
    codes (n.checkArms env span arms).2 = codes (n.checkArms env span' arms').2 := by
  match arms, harms with
  | [], .nil => rfl
  | .mk _ _ :: rest, .cons hcondition hbody hrest =>
    simp only [checkArms, checkStmts_fst, RoutineEnv.pop_push_block, codes_append, codes_atSpan,
      n.codes_checkExpr hcondition, codes_checkStmts hbody, codes_checkArms hrest env span span']

end

end Names

namespace Program

theorem codes_check {p q : Program} (hpq : p.Alike q) (r : Registry) :
    codes (p.check r) = codes (q.check r) := by
  obtain ⟨hsubroutines, hcodes₁⟩ := declareSubroutines_alike hpq.body []
  obtain ⟨henv, hcodes₂⟩ := declareLabels_alike hpq.body .start
  simp only [check, codes_append, hcodes₁, hcodes₂, hsubroutines, henv, hpq.symbols,
    Names.codes_checkStmts _ hpq.body]

/-- Neither the spelling of library members nor the places of statements make a difference: of two
programs that are alike but for that, both are given out as the same bytes or neither is, and what
is wrong with them has the same codes in the same order. -/
theorem assemble_eq_of_alike {p q : Program} (hpq : p.Alike q) (h : Host) (source : String) :
    (∀ bytes, h.assemble p source = .ok bytes ↔ h.assemble q source = .ok bytes) ∧
      ∀ text : SourceText, (p.analyze h.registry text).map Diagnostic.code =
        (q.analyze h.registry text).map Diagnostic.code := by
  refine ⟨h.agree_assemble hpq source, fun text ↦ ?_⟩
  have hcodes : ∀ p : Program,
      (p.analyze h.registry text).map Diagnostic.code = codes (p.check h.registry) := by
    intro p
    rw [analyze, List.map_map]
    rfl
  rw [hcodes, hcodes, codes_check hpq]

/-- The program with quotes and escapes in its names, in other spellings and at other places. -/
def respelled : Program where
  symbols := quoting.symbols
  body :=
    [.callSub "\"" (.point 1 1), .sub "" [] (.point 2 1),
      .sub "\""
        [.call "CONSOLE" "wRITE" [.variable "a\"b\\c"] ⟨4, 5, 4, 20⟩] ⟨3, 1, 5, 6⟩]

theorem quoting_alike_respelled : quoting.Alike respelled where
  symbols := rfl
  body := .cons (.callSub _) (.cons (.sub _ .nil) (.cons (.sub _ (.cons
    (.call (by decide +kernel) (by decide +kernel) (.cons (.variable _) .nil)) .nil)) .nil))

theorem quoting_assemble_eq_respelled :
    quoting.Alike respelled ∧
      (∀ bytes, Host.console.assemble quoting "" = .ok bytes ↔
        Host.console.assemble respelled "" = .ok bytes) ∧
      ∀ text : SourceText, (quoting.analyze Host.console.registry text).map Diagnostic.code =
        (respelled.analyze Host.console.registry text).map Diagnostic.code :=
  ⟨quoting_alike_respelled, assemble_eq_of_alike quoting_alike_respelled .console ""⟩

end Program

end ScriptWasm
