import ScriptWasm.Proofs.Emission.Demand
import ScriptWasm.Proofs.Execution.Direct
import ScriptWasm.Proofs.Library.Binding

/-!
# The code of expressions

The code of an expression puts its value on the stack and leaves locals alone. Whatever happens in
between happens in the same order: the embedder gets the same calls with the same arguments, and
ends in the same state.

Three things have to fit together for that: the tables that code is emitted from, the machine that
it runs on, and the meaning of the names in the program. They fit if the functions that are demanded
are imported at their signatures, and the texts lie where the meaning has them.
-/

namespace ScriptWasm

open Wasm

variable {σ : Type}

/-! ## What code relies on -/

/-- What is demanded is there: a function with its signature, which gives what the signature says,
or a text at its place. -/
def Realizes (I : Instance σ) (w : Setting) (m : Meaning σ) : Demand → Prop
  | .function source type =>
    (∃ f, w.tables.importIndex? source = some f ∧ I.callee? f = some (.host source type)) ∧
      ∀ args s, args.map Value.type = type.params →
        (m.embedder.call source args s).1.map Value.type = type.results
  | .text contents => w.tables.textExtent? contents = some (m.place contents)
  | _ => True

def RealizesAll (I : Instance σ) (w : Setting) (m : Meaning σ) (ds : List Demand) : Prop :=
  ∀ d ∈ ds, Realizes I w m d

@[simp] theorem realizesAll_append {I : Instance σ} {w : Setting} {m : Meaning σ}
    {ds ds' : List Demand} :
    RealizesAll I w m (ds ++ ds') ↔ RealizesAll I w m ds ∧ RealizesAll I w m ds' :=
  List.forall_mem_append

/-- The machine runs code of the setting, and the names in it have the given meaning. -/
structure Implements (I : Instance σ) (w : Setting) (m : Meaning σ) : Prop where
  host : w.host = m.host
  embedder : I.host = m.embedder
  slots : w.tables.slots = m.symbols
  subroutines : w.tables.subroutines = m.subroutines.map Prod.fst
  operators : ∀ op, Realizes I w m (.function (m.host.operators.handle op).source op.signature)

variable {I : Instance σ} {w : Setting} {m : Meaning σ} {ls st : List Value}

/-! ## Calls -/

theorem eq_word_of_types {vs : List Value} (h : vs.map Value.type = [.i32]) :
    ∃ x, vs = [.i32 x] := by
  match vs, h with
  | [.i32 x], _ => exact ⟨x, rfl⟩

namespace Implements

/-- A call of an imported function, whatever it gives. -/
theorem steps_invoke (hI : Implements I w m) {source : ImportRef} {type : FuncType}
    (hr : Realizes I w m (.function source type)) {i : Instr} (hi : w.callImport source = .ok i)
    (args : List Value) (hargs : args.map Value.type = type.params) (s : m.State) :
    I.Steps i ⟨s.world, ls, args.reverse ++ st⟩
      (.done, ⟨(m.invoke source args s).2.world, ls,
        (m.invoke source args s).1.reverse ++ st⟩) := by
  obtain ⟨⟨f, hf, hcallee⟩, -⟩ := hr
  obtain ⟨f', hf', rfl⟩ := map_eq_ok_iff.mp hi
  rw [Tables.imported, hf] at hf'
  cases hf'
  rw [Meaning.invoke, ← hI.embedder]
  exact .callHost hcallee hargs

theorem types_invoke {source : ImportRef} {type : FuncType}
    (hr : Realizes I w m (.function source type)) (args : List Value)
    (hargs : args.map Value.type = type.params) (s : m.State) :
    (m.invoke source args s).1.map Value.type = type.results := hr.2 args s.host hargs

/-- A call of a function that gives a word. -/
theorem steps_ask (hI : Implements I w m) {source : ImportRef} {type : FuncType}
    (hr : Realizes I w m (.function source type)) (hword : type.results = [.i32]) {i : Instr}
    (hi : w.callImport source = .ok i) (args : List Value)
    (hargs : args.map Value.type = type.params) (s : m.State) :
    I.Steps i ⟨s.world, ls, args.reverse ++ st⟩
      (.done, ⟨(m.ask source args s).2.world, ls, .i32 (m.ask source args s).1 :: st⟩) := by
  have hstep : I.Steps i ⟨s.world, ls, args.reverse ++ st⟩ _ :=
    hI.steps_invoke hr hi args hargs s
  obtain ⟨x, hx⟩ := eq_word_of_types ((types_invoke hr args hargs s).trans hword)
  have hask : m.ask source args s = (x, (m.invoke source args s).2) := by
    rw [Meaning.ask, ← Prod.eta (m.invoke source args s), hx]
  rw [hx] at hstep
  rw [hask]
  exact hstep

theorem steps_operate (hI : Implements I w m) {op : Operator} {i : Instr}
    (hi : w.callOperator op = .ok i) (args : List Value)
    (hargs : args.map Value.type = op.signature.params) (s : m.State) :
    I.Steps i ⟨s.world, ls, args.reverse ++ st⟩
      (.done, ⟨(m.operate op args s).2.world, ls, .i32 (m.operate op args s).1 :: st⟩) := by
  rw [Setting.callOperator, hI.host] at hi
  exact hI.steps_ask (hI.operators op) op.results_signature hi args hargs s

theorem runs_lowerNumber (hI : Implements I w m) {x : Binary64} {code : List Instr}
    (hcode : w.lowerNumber x = .ok code) (s : m.State) :
    I.Runs code ⟨s.world, ls, st⟩
      (.done, ⟨(m.number x s).2.world, ls, .i32 (m.number x s).1 :: st⟩) := by
  simp only [Setting.lowerNumber, bind_eq_ok_iff, pure_eq_ok_iff] at hcode
  obtain ⟨call, hcall, rfl⟩ := hcode
  exact .cons (.f64Const x) (.one (hI.steps_operate hcall [.f64 x] rfl s))

/-- A condition leaves a word that is zero if it does not hold. -/
theorem steps_truth (hI : Implements I w m) {i : Instr} (hi : w.callOperator .toBoolean = .ok i)
    (v : UInt32) (s : m.State) :
    ∃ x, I.Steps i ⟨s.world, ls, .i32 v :: st⟩
        (.done, ⟨(m.truth v s).2.world, ls, .i32 x :: st⟩) ∧
      ((m.truth v s).1 = true ↔ x ≠ 0) :=
  ⟨_, hI.steps_operate hi [.i32 v] rfl s, decide_eq_true_iff⟩

/-! ## Variables -/

theorem slot_eq (hI : Implements I w m) {name : String} {i : Nat}
    (hi : w.tables.slot name = .ok i) : m.slot name = i ∧ i < m.symbols.length := by
  rw [Tables.slot, hI.slots] at hi
  split at hi
  · rename_i j hj
    cases hi
    exact ⟨by rw [Meaning.slot, hj, Option.getD_some], Tables.lt_of_lastIndex? hj⟩
  · cases hi

theorem steps_read (hI : Implements I w m) {name : String} {i : Nat}
    (hi : w.tables.slot name = .ok i) (s : m.State) :
    I.Steps (.globalGet i) ⟨s.world, ls, st⟩
      (.done, ⟨s.world, ls, .i32 (m.read name s) :: st⟩) := by
  obtain ⟨rfl, hlt⟩ := hI.slot_eq hi
  rw [← s.size] at hlt
  refine .globalGet ?_
  rw [Store.world, List.getElem?_map, List.getElem?_eq_getElem hlt, Meaning.read,
    List.getD_eq_getElem?_getD, List.getElem?_eq_getElem hlt]
  rfl

theorem steps_write (hI : Implements I w m) {name : String} {i : Nat}
    (hi : w.tables.slot name = .ok i) (v : UInt32) (s : m.State) :
    I.Steps (.globalSet i) ⟨s.world, ls, .i32 v :: st⟩
      (.done, ⟨(m.write name v s).world, ls, st⟩) := by
  obtain ⟨rfl, hlt⟩ := hI.slot_eq hi
  have hworld : (m.write name v s).world =
      { s.world with globals := s.world.globals.set (m.slot name) (.i32 v) } := by
    rw [Store.world, Store.world, Meaning.write, List.map_set]
  rw [hworld]
  exact .globalSet (by rwa [Store.world, List.length_map, s.size])

/-! ## Expressions -/

theorem types_words (vs : List UInt32) :
    (vs.map Value.i32).map Value.type = List.replicate vs.length .i32 := by
  rw [List.map_map, List.eq_replicate_iff]
  simp [Value.type]

theorem length_evalAll (m : Meaning σ) (es : List Expr) (s : m.State) :
    (m.evalAll es s).1.length = es.length := by
  induction es generalizing s with
  | nil => rfl
  | cons e rest ih => simp only [Meaning.evalAll, List.length_cons, ih]

mutual

/-- The code of an expression puts its value on the stack. -/
theorem runs_lowerExpr (hI : Implements I w m) {e : Expr} (ha : m.host.registry.AdmitsExpr e)
    (hr : RealizesAll I w m (m.host.registry.exprDemands e)) {code : List Instr}
    (hcode : w.lowerExpr e = .ok code) (s : m.State) (st : List Value) :
    I.Runs code ⟨s.world, ls, st⟩
      (.done, ⟨(m.eval e s).2.world, ls, .i32 (m.eval e s).1 :: st⟩) := by
  match e with
  | .number x =>
    rw [Setting.lowerExpr] at hcode
    rw [Meaning.eval]
    exact hI.runs_lowerNumber hcode s
  | .text text =>
    have hplace : w.tables.textExtent text = .ok (m.place text) := by
      rw [Tables.textExtent, hr (.text text) (List.mem_singleton.mpr rfl)]
    simp only [Setting.lowerExpr, hplace, ok_bind, bind_eq_ok_iff, pure_eq_ok_iff] at hcode
    obtain ⟨call, hcall, rfl⟩ := hcode
    rw [Meaning.eval]
    exact .cons (.i32Const _) (.cons (.i32Const _) (.one
      (hI.steps_operate hcall [.i32 _, .i32 _] rfl s)))
  | .variable name =>
    simp only [Setting.lowerExpr, bind_eq_ok_iff, pure_eq_ok_iff] at hcode
    obtain ⟨i, hi, rfl⟩ := hcode
    rw [Meaning.eval]
    exact .one (hI.steps_read hi s)
  | .index array indices =>
    simp only [Setting.lowerExpr, bind_eq_ok_iff, pure_eq_ok_iff] at hcode
    obtain ⟨i, hi, path, hpath, rfl⟩ := hcode
    rw [Meaning.eval]
    exact .cons (hI.steps_read hi s) (runs_lowerPath hI ha hr hpath (m.read array s) s st)
  | .property type name =>
    obtain ⟨p, hp, hg⟩ := ha
    obtain ⟨source, hs⟩ := Option.isSome_iff_exists.mp hg
    have hgetter : w.host.getter type name = .ok source :=
      Host.getter_eq_ok_iff.mpr ⟨p, hI.host ▸ hp, hs⟩
    simp only [Setting.lowerExpr, hgetter, ok_bind, bind_eq_ok_iff, pure_eq_ok_iff] at hcode
    obtain ⟨call, hcall, rfl⟩ := hcode
    have hsource : Realizes I w m (.function source getterSignature) := hr _ (by
      simp [Registry.exprDemands, Registry.getterDemands, hp, hs])
    rw [Meaning.eval, hp, Option.bind_some, hs]
    exact .one (hI.steps_ask hsource rfl hcall [] rfl s)
  | .call type method args =>
    obtain ⟨hrcall, hrargs⟩ := realizesAll_append.mp hr
    obtain ⟨⟨d, hd, hcount, hvalue⟩, hargs⟩ := ha
    have hmethod : w.host.method type method = .ok d :=
      Host.method_eq_ok_iff.mpr (hI.host ▸ hd)
    simp only [Setting.lowerExpr, hmethod, ok_bind, bind_eq_ok_iff, pure_eq_ok_iff] at hcode
    obtain ⟨acode, hacode, call, hcall, rfl⟩ := hcode
    have hsource : Realizes I w m (.function d.source d.signature) := hrcall _ (by
      simp [Registry.callDemands, hd])
    have htypes : ((m.evalAll args s).1.map Value.i32).map Value.type = d.signature.params := by
      rw [types_words, length_evalAll, MethodDescriptor.signature, hcount]
    have hword : d.signature.results = [.i32] := by
      rw [MethodDescriptor.signature, if_pos (hvalue rfl)]
    simp only [Meaning.eval, hd]
    exact (runs_lowerArgs hI hargs hrargs hacode s st).append
      (.one (hI.steps_ask hsource hword hcall _ htypes _))
  | .binary op left right =>
    obtain ⟨hrl, hrr⟩ := realizesAll_append.mp hr
    simp only [Setting.lowerExpr, bind_eq_ok_iff, pure_eq_ok_iff] at hcode
    obtain ⟨lcode, hl, rcode, hrc, call, hcall, rfl⟩ := hcode
    rw [Meaning.eval]
    exact ((runs_lowerExpr hI ha.1 hrl hl s st).append
      (runs_lowerExpr hI ha.2 hrr hrc _ _)).append
      (.one (hI.steps_operate hcall [.i32 _, .i32 _]
        op.params_signature.symm _))
  | .negate operand =>
    simp only [Setting.lowerExpr, bind_eq_ok_iff, pure_eq_ok_iff] at hcode
    obtain ⟨ocode, ho, call, hcall, rfl⟩ := hcode
    rw [Meaning.eval]
    exact (runs_lowerExpr hI (e := operand) ha hr ho s st).append
      (.one (hI.steps_operate hcall [.i32 _] rfl _))

/-- The code of arguments puts their values on the stack, the last one on top. -/
theorem runs_lowerArgs (hI : Implements I w m) {es : List Expr}
    (ha : m.host.registry.AdmitsExprs es)
    (hr : RealizesAll I w m (m.host.registry.exprsDemands es)) {code : List Instr}
    (hcode : w.lowerArgs es = .ok code) (s : m.State) (st : List Value) :
    I.Runs code ⟨s.world, ls, st⟩ (.done, ⟨(m.evalAll es s).2.world, ls,
      ((m.evalAll es s).1.map Value.i32).reverse ++ st⟩) := by
  match es with
  | [] =>
    cases hcode
    exact .nil
  | e :: rest =>
    obtain ⟨hre, hrr⟩ := realizesAll_append.mp hr
    simp only [Setting.lowerArgs, bind_eq_ok_iff, pure_eq_ok_iff] at hcode
    obtain ⟨ecode, he, rcode, hrest, rfl⟩ := hcode
    have htail := runs_lowerArgs hI ha.2 hrr hrest (m.eval e s).2 (.i32 (m.eval e s).1 :: st)
    simp only [Meaning.evalAll, List.map_cons, List.reverse_cons, List.append_assoc,
      List.singleton_append]
    exact (runs_lowerExpr hI ha.1 hre he s st).append htail

/-- The code of indices follows them from the array on the stack. -/
theorem runs_lowerPath (hI : Implements I w m) {es : List Expr}
    (ha : m.host.registry.AdmitsExprs es)
    (hr : RealizesAll I w m (m.host.registry.exprsDemands es)) {code : List Instr}
    (hcode : w.lowerPath es = .ok code) (v : UInt32) (s : m.State) (st : List Value) :
    I.Runs code ⟨s.world, ls, .i32 v :: st⟩
      (.done, ⟨(m.follow es v s).2.world, ls, .i32 (m.follow es v s).1 :: st⟩) := by
  match es with
  | [] =>
    cases hcode
    exact .nil
  | e :: rest =>
    obtain ⟨hre, hrr⟩ := realizesAll_append.mp hr
    simp only [Setting.lowerPath, bind_eq_ok_iff, pure_eq_ok_iff] at hcode
    obtain ⟨ecode, he, get, hget, rcode, hrest, rfl⟩ := hcode
    rw [Meaning.follow]
    exact (runs_lowerExpr hI ha.1 hre he s (.i32 v :: st)).append
      (.cons (hI.steps_operate hget [.i32 v, .i32 _] rfl _)
        (runs_lowerPath hI ha.2 hrr hrest _ _ st))

end

end Implements

/-! ## Conditions -/

/-- Code puts a word on the stack that is zero if the answer to a question is no. -/
def Decides (I : Instance σ) (m : Meaning σ) (question : m.State → Bool × m.State)
    (ls : List Value) (code : List Instr) : Prop :=
  ∀ (s : m.State) (st : List Value), ∃ x,
    I.Runs code ⟨s.world, ls, st⟩ (.done, ⟨(question s).2.world, ls, .i32 x :: st⟩) ∧
      ((question s).1 = true ↔ x ≠ 0)

theorem Implements.decides_lowerCondition (hI : Implements I w m) {e : Expr}
    (ha : m.host.registry.AdmitsExpr e)
    (hr : RealizesAll I w m (m.host.registry.exprDemands e)) {code : List Instr}
    (hcode : w.lowerCondition e = .ok code) : Decides I m (m.test e) ls code := by
  intro s st
  simp only [Setting.lowerCondition, bind_eq_ok_iff, pure_eq_ok_iff] at hcode
  obtain ⟨vcode, hv, call, hcall, rfl⟩ := hcode
  obtain ⟨x, hstep, hx⟩ := hI.steps_truth (m := m) hcall (m.eval e s).1 (m.eval e s).2
  exact ⟨x, (hI.runs_lowerExpr ha hr hv s st).append (.one hstep), hx⟩

end ScriptWasm
