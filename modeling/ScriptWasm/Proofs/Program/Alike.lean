import ScriptWasm.Library.Registry
import ScriptWasm.Program.Basic

/-!
# Spellings and places

Types and members of libraries are found by the keys of their names, and what is found carries its
own spelling and its own import. So it should make no difference how a program spells these names,
nor where its statements stand. Here it is said what it means that two programs differ in nothing
else. The names of variables, labels and subroutines are the program's own, and are the same.
-/

namespace ScriptWasm

/-! ## Programs that are alike -/

/-- Two spellings of the name of a type or a member. -/
def SameKey (a b : String) : Prop := Registry.key a = Registry.key b

instance (a b : String) : Decidable (SameKey a b) := inferInstanceAs (Decidable (_ = _))

mutual

/-- Expressions that differ only in the spelling of library members. -/
inductive Expr.Alike : Expr → Expr → Prop
  | number (x : Binary64) : Expr.Alike (.number x) (.number x)
  | text (s : String) : Expr.Alike (.text s) (.text s)
  | variable (name : String) : Expr.Alike (.variable name) (.variable name)
  | index (array : String) {indices indices' : List Expr} (h : ExprsAlike indices indices') :
    Expr.Alike (.index array indices) (.index array indices')
  | property {type type' name name' : String} (htype : SameKey type type')
    (hname : SameKey name name') : Expr.Alike (.property type name) (.property type' name')
  | call {type type' name name' : String} {args args' : List Expr} (htype : SameKey type type')
    (hname : SameKey name name') (hargs : ExprsAlike args args') :
    Expr.Alike (.call type name args) (.call type' name' args')
  | binary (op : BinaryOp) {left left' right right' : Expr} (hleft : Expr.Alike left left')
    (hright : Expr.Alike right right') :
    Expr.Alike (.binary op left right) (.binary op left' right')
  | negate {operand operand' : Expr} (h : Expr.Alike operand operand') :
    Expr.Alike (.negate operand) (.negate operand')

/-- Expressions that are alike one by one. -/
inductive ExprsAlike : List Expr → List Expr → Prop
  | nil : ExprsAlike [] []
  | cons {e e' : Expr} {es es' : List Expr} (h : Expr.Alike e e') (hs : ExprsAlike es es') :
    ExprsAlike (e :: es) (e' :: es')

end

inductive Target.Alike : Target → Target → Prop
  | variable (name : String) : Target.Alike (.variable name) (.variable name)
  | index (array : String) {indices indices' : List Expr} (h : ExprsAlike indices indices') :
    Target.Alike (.index array indices) (.index array indices')
  | property {type type' name name' : String} (htype : SameKey type type')
    (hname : SameKey name name') : Target.Alike (.property type name) (.property type' name')
  | event {type type' name name' : String} (htype : SameKey type type')
    (hname : SameKey name name') : Target.Alike (.event type name) (.event type' name')

mutual

/-- Statements that differ only in their spans and in the spelling of library members. -/
inductive Stmt.Alike : Stmt → Stmt → Prop
  | assign {target target' : Target} {value value' : Expr} {span span' : Span}
    (htarget : target.Alike target') (hvalue : value.Alike value') :
    Stmt.Alike (.assign target value span) (.assign target' value' span')
  | call {type type' name name' : String} {args args' : List Expr} {span span' : Span}
    (htype : SameKey type type') (hname : SameKey name name') (hargs : ExprsAlike args args') :
    Stmt.Alike (.call type name args span) (.call type' name' args' span')
  | cond {condition condition' : Expr} {body body' : List Stmt} {arms arms' : List Arm}
    {otherwise otherwise' : List Stmt} {span span' : Span}
    (hcondition : condition.Alike condition') (hbody : StmtsAlike body body')
    (harms : ArmsAlike arms arms') (hotherwise : StmtsAlike otherwise otherwise') :
    Stmt.Alike (.cond condition body arms otherwise span)
      (.cond condition' body' arms' otherwise' span')
  | while {condition condition' : Expr} {body body' : List Stmt} {span span' : Span}
    (hcondition : condition.Alike condition') (hbody : StmtsAlike body body') :
    Stmt.Alike (.while condition body span) (.while condition' body' span')
  | for (name : String) {start start' stop stop' : Expr} {step step' : Option Expr}
    {body body' : List Stmt} {span span' : Span} (hstart : start.Alike start')
    (hstop : stop.Alike stop') (hstep : ExprsAlike step.toList step'.toList)
    (hbody : StmtsAlike body body') :
    Stmt.Alike (.for name start stop step body span) (.for name start' stop' step' body' span')
  | goto (name : String) {span span' : Span} : Stmt.Alike (.goto name span) (.goto name span')
  | label (name : String) {span span' : Span} : Stmt.Alike (.label name span) (.label name span')
  | sub (name : String) {body body' : List Stmt} {span span' : Span}
    (hbody : StmtsAlike body body') : Stmt.Alike (.sub name body span) (.sub name body' span')
  | callSub (name : String) {span span' : Span} :
    Stmt.Alike (.callSub name span) (.callSub name span')
  | empty {span span' : Span} : Stmt.Alike (.empty span) (.empty span')

/-- Statements that are alike one by one. -/
inductive StmtsAlike : List Stmt → List Stmt → Prop
  | nil : StmtsAlike [] []
  | cons {s s' : Stmt} {body body' : List Stmt} (h : Stmt.Alike s s')
    (hbody : StmtsAlike body body') : StmtsAlike (s :: body) (s' :: body')

inductive ArmsAlike : List Arm → List Arm → Prop
  | nil : ArmsAlike [] []
  | cons {condition condition' : Expr} {body body' : List Stmt} {arms arms' : List Arm}
    (hcondition : condition.Alike condition') (hbody : StmtsAlike body body')
    (harms : ArmsAlike arms arms') :
    ArmsAlike (.mk condition body :: arms) (.mk condition' body' :: arms')

end

/-- Programs with the same variables that differ only in the spans of their statements and in the
spelling of library members. -/
structure Program.Alike (p q : Program) : Prop where
  symbols : p.symbols = q.symbols
  body : StmtsAlike p.body q.body

theorem ExprsAlike.length_eq {es es' : List Expr} (h : ExprsAlike es es') :
    es.length = es'.length := by
  match es, h with
  | [], .nil => rfl
  | e :: es, .cons _ hs => rw [List.length_cons, List.length_cons, hs.length_eq]

theorem ExprsAlike.isEmpty_eq {es es' : List Expr} (h : ExprsAlike es es') :
    es.isEmpty = es'.isEmpty := by
  cases h <;> rfl

theorem StmtsAlike.isEmpty_eq {body body' : List Stmt} (hbody : StmtsAlike body body') :
    body.isEmpty = body'.isEmpty := by
  cases hbody <;> rfl

/-! ## Looking up members -/

namespace Registry

variable {type type' name name' : String} (r : Registry)

theorem get?_congr (htype : SameKey type type') : r.get? type = r.get? type' := by
  rw [get?, htype, get?]

theorem method?_congr (htype : SameKey type type') (hname : SameKey name name') :
    r.method? type name = r.method? type' name' := by
  rw [method?, r.get?_congr htype, hname, method?]

theorem property?_congr (htype : SameKey type type') (hname : SameKey name name') :
    r.property? type name = r.property? type' name' := by
  rw [property?, r.get?_congr htype, hname, property?]

theorem event?_congr (htype : SameKey type type') (hname : SameKey name name') :
    r.event? type name = r.event? type' name' := by
  rw [event?, r.get?_congr htype, hname, event?]

end Registry

end ScriptWasm
