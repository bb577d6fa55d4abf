import ScriptWasm.Proofs.Execution.Preservation
import ScriptWasm.Proofs.Program.Parts

/-!
# What words stand for

Code hands words on and never looks into them; only the embedder knows what they stand for. A word
is a handle, so what it stands for depends on the state that the embedder is in, and it goes on
standing for the same value as long as the embedder is sound. An embedder whose handles run out is
not sound any more: there are only so many words.

Whatever a program does takes the embedder from one state to another by calls. So values are kept
over everything that a program does, and it only has to be said of single calls what they do with
values.
-/

namespace ScriptWasm

open Wasm

variable {σ : Type}

/-! ## Programs in use -/

/-- The tables of a program, which are empty if it has none. -/
def Program.tablesOn (p : Program) (h : Host) : Tables :=
  (Tables.ofProgram h p).toOption.getD .empty

def Program.codesOn (p : Program) (h : Host) : List Code :=
  (Setting.lowerProgram ⟨h, p.tablesOn h⟩ p).toOption.getD []

/-- An embedder that always gives a word can be used where nothing else is asked for. -/
theorem Wasm.Embedder.honors_of_words {e : Embedder σ} {uses : List (ImportRef × FuncType)}
    (he : ∀ source args s, (e.call source args s).1.map Value.type = [.i32])
    (huses : ∀ u ∈ uses, u.2.results = [.i32]) : e.Honors uses := by
  intro u hu args s _
  rw [he, huses u hu]

/-- A program whose module is linked to an embedder: the module is valid, members are imported at
the types that they are used with, and the embedder gives what these types say. -/
structure Deployment (σ : Type) where
  host : Host
  program : Program
  source : String
  runtime : Library
  tables : Tables
  codes : List Code
  embedder : Embedder σ
  operators : Bindings.resolve runtime = .ok host.operators
  prepared : Tables.ofProgram host program = .ok tables
  lowered : Setting.lowerProgram ⟨host, tables⟩ program = .ok codes
  valid : (tables.layout codes (.ofTables tables source)).isValid
  imported : ∀ u ∈ host.uses program,
    (tables.layout codes (.ofTables tables source)).importType? u.1 = some u.2
  honored : embedder.Honors (host.uses program)

namespace Deployment

variable (d : Deployment σ)

def module : Module := d.tables.layout d.codes (.ofTables d.tables d.source)

/-- The machine that code of the program runs on. -/
def machine : Instance σ := d.module.link d.embedder

/-- What code of the program is emitted from. -/
def setting : Setting := ⟨d.host, d.tables⟩

/-- What the program means. -/
def meaning : Meaning σ := d.program.meaning d.host d.embedder d.tables.place

theorem isLinked : d.tables.IsLinked d.host d.program d.codes where
  toIsFinished := Tables.isFinished_of_ofProgram d.prepared
  operators_typed := Bindings.signature_of_resolve d.operators
  imported u hu := by rw [← Tables.importType?_layout, d.imported u hu]
  routine := Tables.signatures_of_ofProgram d.prepared
  lowered := d.lowered
  few _ hcode := Module.branchesAreFew_of_isValid d.valid (by rwa [Tables.codes_layout])

theorem implements : Implements d.machine d.setting d.meaning := d.isLinked.implements d.honored

theorem realizesAll {ds : List Demand}
    (hds : ds ⊆ d.host.registry.stmtsDemands d.program.body) :
    RealizesAll d.machine d.setting d.meaning ds :=
  fun demand hdemand ↦ d.isLinked.realizesAll d.honored demand (hds hdemand)

theorem coversStmt {s : Stmt} (hs : s ∈ d.program.statements) :
    d.host.registry.CoversStmt (d.host.registry.stmtsDemands d.program.body) s :=
  Program.coversStmt_of_mem_statements d.isLinked.admitted hs

theorem coversExprs {es : List Expr} (hes : ∀ e ∈ es, e ∈ d.program.expressions) :
    d.host.registry.CoversExprs (d.host.registry.stmtsDemands d.program.body) es := by
  induction es with
  | nil => exact Registry.coversExprs_nil
  | cons e rest ih =>
    rw [List.forall_mem_cons] at hes
    exact Registry.coversExprs_cons_iff.mpr
      ⟨Program.coversExpr_of_mem_expressions d.isLinked.admitted hes.1, ih hes.2⟩

/-- Code of blocks does what they do. -/
theorem carriesBlocks (n : Nat) : CarriesBlocks d.machine d.setting d.meaning n :=
  d.implements.carriesBlocks fun _ _ ↦
    d.implements.carriesCalls fun _ _ hsub ↦ d.isLinked.callable_subroutine d.honored hsub

end Deployment

/-! ## Calls -/

namespace Wasm.Embedder

/-- Calls take an embedder from one state to another. -/
inductive Leads (e : Embedder σ) : σ → σ → Prop
  | refl (s : σ) : Leads e s s
  | call {source : ImportRef} {args : List Value} {s s' : σ}
    (h : Leads e (e.call source args s).2 s') : Leads e s s'

theorem Leads.trans {e : Embedder σ} {s s' s'' : σ} (h : e.Leads s s') (h' : e.Leads s' s'') :
    e.Leads s s'' := by
  induction h with
  | refl => exact h'
  | call _ ih => exact .call (ih h')

/-- The word that an operation gives. -/
def answer (e : Embedder σ) (b : Bindings) (op : Operator) (args : List Value) (s : σ) :
    UInt32 × σ :=
  match e.call (b.handle op).source args s with
  | ([.i32 w], s) => (w, s)
  | (_, s) => (0, s)

end Wasm.Embedder

namespace Meaning

variable {m : Meaning σ}

theorem read_write {name : String} (hslot : m.slot name < m.symbols.length) (v : UInt32)
    (s : m.State) : m.read name (m.write name v s) = v := by
  rw [read, write, List.getD_eq_getElem?_getD, List.getElem?_set_self (by rwa [s.size]),
    Option.getD_some]

theorem read_write_of_ne {name other : String} (h : m.slot name ≠ m.slot other) (v : UInt32)
    (s : m.State) : m.read name (m.write other v s) = m.read name s := by
  rw [read, read, write, List.getD_eq_getElem?_getD, List.getElem?_set_ne (Ne.symm h),
    List.getD_eq_getElem?_getD]

/-- Nothing has happened but calls. -/
structure Consults (m : Meaning σ) (s s' : m.State) : Prop where
  slots : s'.slots = s.slots
  leads : m.embedder.Leads s.host s'.host

namespace Consults

variable {s s' s'' : m.State}

theorem refl (s : m.State) : m.Consults s s := ⟨rfl, .refl _⟩

theorem trans (h : m.Consults s s') (h' : m.Consults s' s'') : m.Consults s s'' :=
  ⟨h'.slots.trans h.slots, h.leads.trans h'.leads⟩

theorem read (h : m.Consults s s') (name : String) : m.read name s' = m.read name s := by
  rw [Meaning.read, Meaning.read, h.slots]

end Consults

theorem consults_invoke (source : ImportRef) (args : List Value) (s : m.State) :
    m.Consults s (m.invoke source args s).2 := ⟨rfl, .call (.refl _)⟩

theorem ask_snd (source : ImportRef) (args : List Value) (s : m.State) :
    (m.ask source args s).2 = (m.invoke source args s).2 := by
  rw [ask]
  split <;> simp_all

theorem consults_ask (source : ImportRef) (args : List Value) (s : m.State) :
    m.Consults s (m.ask source args s).2 := by
  rw [ask_snd]
  exact consults_invoke source args s

theorem consults_operate (op : Operator) (args : List Value) (s : m.State) :
    m.Consults s (m.operate op args s).2 := consults_ask _ args s

/-- An operation only depends on the state of the embedder. -/
theorem operate_eq_answer (op : Operator) (args : List Value) (s : m.State) :
    ((m.operate op args s).1, (m.operate op args s).2.host) =
      m.embedder.answer m.host.operators op args s.host := by
  rcases hcall : m.embedder.call (m.host.operators.handle op).source args s.host with ⟨vs, host⟩
  simp only [operate, ask, invoke, Embedder.answer, hcall]
  rcases vs with _ | ⟨_ | _, _ | _⟩ <;> rfl

theorem consults_truth (v : UInt32) (s : m.State) : m.Consults s (m.truth v s).2 :=
  consults_operate _ _ s

mutual

theorem consults_eval (e : Expr) (s : m.State) : m.Consults s (m.eval e s).2 := by
  match e with
  | .number x => exact consults_operate _ _ s
  | .text text => exact consults_operate _ _ s
  | .variable name => exact .refl s
  | .index array indices => exact consults_follow indices _ s
  | .property type name =>
    rw [eval]
    split
    · exact consults_ask _ _ s
    · exact .refl s
  | .call type method args =>
    refine (consults_evalAll args s).trans ?_
    simp only [eval]
    split
    · exact consults_ask _ _ _
    · exact .refl _
  | .binary op left right =>
    exact (consults_eval left s).trans ((consults_eval right _).trans (consults_operate _ _ _))
  | .negate operand => exact (consults_eval operand s).trans (consults_operate _ _ _)

theorem consults_evalAll (es : List Expr) (s : m.State) : m.Consults s (m.evalAll es s).2 := by
  match es with
  | [] => exact .refl s
  | e :: rest => exact (consults_eval e s).trans (consults_evalAll rest _)

theorem consults_follow (es : List Expr) (v : UInt32) (s : m.State) :
    m.Consults s (m.follow es v s).2 := by
  match es with
  | [] => exact .refl s
  | e :: rest =>
    exact (consults_eval e s).trans
      ((consults_operate _ _ _).trans (consults_follow rest _ _))

end

theorem consults_test (e : Expr) (s : m.State) : m.Consults s (m.test e s).2 :=
  (consults_eval e s).trans (consults_truth _ _)

theorem consults_update (value : Expr) (indices : List Expr) (array : UInt32) (s : m.State) :
    m.Consults s (m.update value indices array s).2 := by
  induction indices generalizing array s with
  | nil => exact .refl s
  | cons first rest ih =>
    cases rest with
    | nil =>
      exact (consults_eval first s).trans
        ((consults_eval value _).trans (consults_operate _ _ _))
    | cons second rest =>
      exact (consults_eval first s).trans
        ((consults_operate _ _ _).trans ((ih _ _).trans (consults_operate _ _ _)))

theorem consults_descends (step : UInt32) (s : m.State) : m.Consults s (m.descends step s).2 :=
  (consults_operate _ _ s).trans ((consults_operate _ _ _).trans (consults_truth _ _))

theorem consults_goesOn (name : String) (k : Counting) (s : m.State) :
    m.Consults s (m.goesOn name k s).2 := (consults_operate _ _ s).trans (consults_truth _ _)

/-! ## Statements -/

theorem leads_assign (value : Expr) (target : Target) (s : m.State) :
    m.embedder.Leads s.host (m.assign value target s).host := by
  match target with
  | .variable _ => exact (consults_eval value s).leads
  | .index _ indices => exact (consults_update value indices _ s).leads
  | .property type name =>
    refine (consults_eval value s).leads.trans ?_
    simp only [assign]
    split
    · exact (consults_invoke _ _ _).leads
    · exact .refl _
  | .event type name =>
    cases value with
    | «variable» handler =>
      simp only [assign]
      split
      · exact (consults_invoke _ _ s).leads
      · exact .refl _
    | _ => exact .refl _

theorem leads_perform (type method : String) (args : List Expr) (s : m.State) :
    m.embedder.Leads s.host (m.perform type method args s).host := by
  refine (consults_evalAll args s).leads.trans ?_
  simp only [perform]
  split
  · exact (consults_invoke _ _ _).leads
  · exact .refl _

/-- The state in which the end of a loop is evaluated. -/
def started (m : Meaning σ) (name : String) (start : Expr) (s : m.State) : m.State :=
  m.write name (m.eval start s).1 (m.eval start s).2

theorem consults_enter (name : String) (start stop : Expr) (step : Option Expr) (s : m.State) :
    m.Consults (m.started name start s) (m.enter name start stop step s).2 := by
  have hstop := consults_eval stop (m.started name start s)
  cases step with
  | none => exact hstop.trans (consults_operate _ _ _)
  | some step => exact hstop.trans ((consults_eval step _).trans (consults_descends _ _))

theorem leads_enter (name : String) (start stop : Expr) (step : Option Expr) (s : m.State) :
    m.embedder.Leads s.host (m.enter name start stop step s).2.host :=
  (consults_eval start s).leads.trans (consults_enter name start stop step s).leads

theorem leads_advance (name : String) (k : Counting) (s : m.State) :
    m.embedder.Leads s.host (m.advance name k s).host := (consults_operate _ _ s).leads

mutual

/-- Whatever statements do, the embedder gets from state to state by calls. -/
theorem leads_runStmt {n : Nat} {st : Stmt} {s s' : m.State} {flow : Flow}
    (h : m.runStmt n st s = some (flow, s')) : m.embedder.Leads s.host s'.host := by
  match n, st with
  | 0, _ => cases h
  | n + 1, .assign target value _ =>
    cases h
    exact leads_assign value target s
  | n + 1, .call type method args _ =>
    cases h
    exact leads_perform type method args s
  | n + 1, .cond condition body arms otherwise _ => exact leads_runArms h
  | n + 1, .while condition body _ =>
    exact leads_runLoop (fun s ↦ (consults_test condition s).leads) (fun s ↦ .refl _) h
  | n + 1, .for name start stop step body _ =>
    exact (leads_enter name start stop step s).trans
      (leads_runLoop (fun s ↦ (consults_goesOn name _ s).leads) (leads_advance name _) h)
  | n + 1, .goto _ _ =>
    cases h
    exact .refl _
  | n + 1, .callSub name _ =>
    obtain ⟨body, -, h⟩ := Option.bind_eq_some_iff.mp h
    obtain ⟨s₁, hroutine, heq⟩ := Option.bind_eq_some_iff.mp h
    cases heq
    exact leads_runRoutine hroutine
  | n + 1, .label _ _ =>
    cases h
    exact .refl _
  | n + 1, .sub _ _ _ =>
    cases h
    exact .refl _
  | n + 1, .empty _ =>
    cases h
    exact .refl _

theorem leads_runStmts {n : Nat} {body : List Stmt} {s s' : m.State} {flow : Flow}
    (h : m.runStmts n body s = some (flow, s')) : m.embedder.Leads s.host s'.host := by
  match n, body with
  | 0, _ => cases h
  | n + 1, [] =>
    cases h
    exact .refl _
  | n + 1, st :: rest =>
    obtain ⟨⟨flow₁, s₁⟩, hstmt, hrest⟩ := Option.bind_eq_some_iff.mp h
    refine (leads_runStmt hstmt).trans ?_
    cases flow₁ with
    | next => exact leads_runStmts hrest
    | jump name =>
      cases hrest
      exact .refl _

theorem leads_runArms {n : Nat} {arms : List Arm} {otherwise : List Stmt} {s s' : m.State}
    {flow : Flow} (h : m.runArms n arms otherwise s = some (flow, s')) :
    m.embedder.Leads s.host s'.host := by
  match n, arms with
  | 0, _ => cases h
  | n + 1, [] => exact leads_runStmts h
  | n + 1, .mk condition body :: arms =>
    have htest := (consults_test condition s).leads
    rw [runArms] at h
    split at h <;> rename_i s₁ hs <;> rw [hs] at htest
    · exact htest.trans (leads_runStmts h)
    · exact htest.trans (leads_runArms h)

theorem leads_runLoop {n : Nat} {again : m.State → Bool × m.State} {body : List Stmt}
    {next : m.State → m.State} {s s' : m.State} {flow : Flow}
    (hagain : ∀ s, m.embedder.Leads s.host (again s).2.host)
    (hnext : ∀ s, m.embedder.Leads s.host (next s).host)
    (h : m.runLoop n again body next s = some (flow, s')) : m.embedder.Leads s.host s'.host := by
  match n with
  | 0 => cases h
  | n + 1 =>
    have htest := hagain s
    rw [runLoop] at h
    split at h <;> rename_i s₁ hs <;> rw [hs] at htest
    · obtain ⟨⟨flow₁, s₂⟩, hpass, hrest⟩ := Option.bind_eq_some_iff.mp h
      refine htest.trans ((leads_runStmts hpass).trans ?_)
      cases flow₁ with
      | next => exact (hnext s₂).trans (leads_runLoop hagain hnext hrest)
      | jump name =>
        cases hrest
        exact .refl _
    · cases h
      exact htest

theorem leads_runRoutine {n : Nat} {routine rest : List Stmt} {s s' : m.State}
    (h : m.runRoutine n routine rest s = some s') : m.embedder.Leads s.host s'.host := by
  match n with
  | 0 => cases h
  | n + 1 =>
    obtain ⟨⟨flow, s₁⟩, hstmts, hend⟩ := Option.bind_eq_some_iff.mp h
    refine (leads_runStmts hstmts).trans ?_
    cases flow with
    | next =>
      cases hend
      exact .refl _
    | jump name =>
      obtain ⟨rest', -, hagain⟩ := Option.bind_eq_some_iff.mp hend
      exact leads_runRoutine hagain

end

end Meaning

/-! ## Values -/

/-- Which values words stand for, in a state of an embedder. Words go on standing for their values
over every call that leaves the embedder sound. -/
structure Reading (e : Embedder σ) (V : Type) where
  stands : σ → UInt32 → V → Prop
  sound : σ → Prop
  sound_of_call : ∀ source args s, sound (e.call source args s).2 → sound s
  stands_call : ∀ source args s w v, sound (e.call source args s).2 → stands s w v →
    stands (e.call source args s).2 w v

namespace Reading

variable {e : Embedder σ} {V : Type} (ρ : Reading e V) {s s' : σ}

theorem sound_of_leads (h : e.Leads s s') (hs : ρ.sound s') : ρ.sound s := by
  induction h with
  | refl => exact hs
  | call _ ih => exact ρ.sound_of_call _ _ _ (ih hs)

theorem stands_of_leads (h : e.Leads s s') (hs : ρ.sound s') {w : UInt32} {v : V}
    (hv : ρ.stands s w v) : ρ.stands s' w v := by
  induction h with
  | refl => exact hv
  | call h ih => exact ih hs (ρ.stands_call _ _ _ _ _ (ρ.sound_of_leads h hs) hv)

/-- What is evaluated stands for a value, right after its evaluation. -/
def Gives {m : Meaning σ} (ρ : Reading m.embedder V) (r : UInt32 × m.State) (v : V) : Prop :=
  ρ.stands r.2.host r.1 v

end Reading

end ScriptWasm
