import Mathlib.Data.Option.Basic
import ScriptWasm.Library.Registry
import ScriptWasm.Wasm.Validity

/-!
# Running code

A machine for the instructions that are emitted: blocks and branches, calls, locals and globals,
constants and the test for zero. Any other instruction stops it.

Every block runs on an operand stack of its own, as code in a block cannot reach below it. Running
ends behind the last instruction, or with a branch that still has to leave a number of blocks. The
machine takes an amount of fuel, and a finished run does not depend on how much there was. So what
is said about runs below hides the fuel: the rules are those of the instructions, one by one.
-/

namespace ScriptWasm.Wasm

/-! ## Values and worlds -/

inductive Value where
  | i32 (word : UInt32)
  | f64 (number : Binary64)
deriving Repr

namespace Value

def type : Value → ValType
  | .i32 _ => .i32
  | .f64 _ => .f64

/-- What a local of a type holds at first. -/
def zero? : ValType → Option Value
  | .i32 => some (.i32 0)
  | .f64 => some (.f64 .zero)
  | _ => none

end Value

/-- A call of an imported function. -/
structure HostCall where
  source : ImportRef
  args : List Value
deriving Repr

/-- What imported functions do: they take values, change a state of their own, and give values. They
always return, and never call back. -/
structure Embedder (σ : Type) where
  call : ImportRef → List Value → σ → List Value × σ

/-- What outlives a call: the globals, the state of the embedder, and the calls that it has had. -/
structure World (σ : Type) where
  globals : List Value
  host : σ
  calls : List HostCall

variable {σ : Type}

/-- A call of an imported function, as it is seen from outside. -/
def World.invoke (w : World σ) (e : Embedder σ) (source : ImportRef) (args : List Value) :
    List Value × World σ :=
  let (results, host) := e.call source args w.host
  (results, { w with host := host, calls := w.calls ++ [⟨source, args⟩] })

/-! ## Functions -/

/-- What the index of a function stands for. -/
inductive Callee where
  | host (source : ImportRef) (type : FuncType)
  | code (type : FuncType) (code : Code)
deriving Repr

def Callee.type : Callee → FuncType
  | .host _ type => type
  | .code type _ => type

/-- The locals that a function declares, as they are at first. -/
def Code.zeros? (code : Code) : Option (List Value) :=
  (code.locals.flatMap fun (n, t) ↦ List.replicate n t).mapM Value.zero?

namespace Module

/-- The signature with the given index, as it is written. -/
def signature? (m : Module) (i : Nat) : Option FuncType :=
  match m.typeGroups.flatten[i]? with
  | some ⟨_, _, .func t⟩ => some t
  | _ => none

/-- The functions of a module, imported ones first. -/
def callees (m : Module) : List (Option Callee) :=
  (m.imports.filterMap fun i ↦ match i.type with
    | .function t => some ((m.signature? t).map (.host ⟨i.module, i.field⟩))
    | _ => none) ++
  (m.functions.zip m.codes).map fun (t, code) ↦ (m.signature? t).map (.code · code)

end Module

/-- A module that is linked to an embedder. -/
structure Instance (σ : Type) where
  callee? : Nat → Option Callee
  host : Embedder σ

def Module.link (m : Module) (e : Embedder σ) : Instance σ := ⟨fun f ↦ m.callees[f]?.join, e⟩

theorem Module.callee?_link (m : Module) (e : Embedder σ) (f : Nat) :
    (m.link e).callee? f = m.callees[f]?.join := rfl

/-! ## The machine -/

/-- The state of a run. The topmost operand comes first. -/
structure Config (σ : Type) where
  world : World σ
  locals : List Value
  stack : List Value

/-- How a run ends: behind the last instruction, or with a branch to the block that so many others
are in. -/
inductive Exit where
  | done
  | branch (depth : Nat)
deriving DecidableEq, Repr

/-- How many values a block gives. -/
def BlockType.arity? : BlockType → Option Nat
  | .empty => some 0
  | .value _ => some 1
  | .signature _ => none

/-- The end of a block: what it gives is put on the stack around it. -/
def leave (arity : Nat) (outer : List Value) : Exit × Config σ → Exit × Config σ
  | (.done, c) => (.done, { c with stack := c.stack.take arity ++ outer })
  | (.branch 0, c) => (.done, { c with stack := c.stack.take arity ++ outer })
  | (.branch (k + 1), c) => (.branch k, c)

namespace Instance

variable (I : Instance σ)

mutual

def step : (fuel : Nat) → Instr → Config σ → Option (Exit × Config σ)
  | 0, _, _ => none
  | n + 1, .block type body, c => do
    let arity ← type.arity?
    return leave arity c.stack (← run n body { c with stack := [] })
  | n + 1, .loop type body, c => do
    let arity ← type.arity?
    match ← run n body { c with stack := [] } with
    | (.branch 0, c') => step n (.loop type body) { c' with stack := c.stack }
    | r => return leave arity c.stack r
  | n + 1, .ifThen type yes, c =>
    match c.stack with
    | .i32 w :: stack =>
      if w = 0 then some (.done, { c with stack := stack })
      else step n (.block type yes) { c with stack := stack }
    | _ => none
  | n + 1, .ifElse type yes no, c =>
    match c.stack with
    | .i32 w :: stack => step n (.block type (if w = 0 then no else yes)) { c with stack := stack }
    | _ => none
  | _ + 1, .br depth, c => some (.branch depth, c)
  | _ + 1, .brIf depth, c =>
    match c.stack with
    | .i32 w :: stack => some (if w = 0 then .done else .branch depth, { c with stack := stack })
    | _ => none
  | _ + 1, .brTable depths last, c =>
    match c.stack with
    | .i32 w :: stack => some (.branch (depths.getD w.toNat last), { c with stack := stack })
    | _ => none
  | n + 1, .call f, c => do
    let callee ← I.callee? f
    let count := callee.type.params.length
    let args := (c.stack.take count).reverse
    guard (args.map Value.type = callee.type.params)
    match callee with
    | .host source _ =>
      let (results, world) := c.world.invoke I.host source args
      return (.done, { c with world := world, stack := results.reverse ++ c.stack.drop count })
    | .code type code =>
      let zeros ← code.zeros?
      match leave type.results.length (c.stack.drop count)
          (← run n code.body ⟨c.world, args ++ zeros, []⟩) with
      | (.done, c') => return (.done, { c' with locals := c.locals })
      | (.branch _, _) => none
  | _ + 1, .drop, c =>
    match c.stack with
    | _ :: stack => some (.done, { c with stack := stack })
    | [] => none
  | _ + 1, .localGet i, c => do
    return (.done, { c with stack := (← c.locals[i]?) :: c.stack })
  | _ + 1, .localSet i, c =>
    match c.stack with
    | v :: stack =>
      if i < c.locals.length then
        some (.done, { c with locals := c.locals.set i v, stack := stack })
      else none
    | [] => none
  | _ + 1, .globalGet i, c => do
    return (.done, { c with stack := (← c.world.globals[i]?) :: c.stack })
  | _ + 1, .globalSet i, c =>
    match c.stack with
    | v :: stack =>
      if i < c.world.globals.length then
        some (.done, { c with
          world := { c.world with globals := c.world.globals.set i v }, stack := stack })
      else none
    | [] => none
  | _ + 1, .i32Const w, c => some (.done, { c with stack := .i32 w :: c.stack })
  | _ + 1, .f64Const x, c => some (.done, { c with stack := .f64 x :: c.stack })
  | _ + 1, .numeric code, c =>
    -- The test for zero, which is the only one that is emitted.
    match c.stack with
    | .i32 w :: stack =>
      if code = 0x45 then
        some (.done, { c with stack := .i32 (if w = 0 then 1 else 0) :: stack })
      else none
    | _ => none
  | _ + 1, _, _ => none

def run : (fuel : Nat) → List Instr → Config σ → Option (Exit × Config σ)
  | 0, _, _ => none
  | _ + 1, [], c => some (.done, c)
  | n + 1, i :: rest, c => do
    match ← step n i c with
    | (.done, c') => run n rest c'
    | (.branch k, c') => return (.branch k, c')

end

/-! ## More fuel changes nothing -/

variable {I}

mutual

theorem step_succ {n : Nat} {i : Instr} {c : Config σ} {r : Exit × Config σ}
    (h : I.step n i c = some r) : I.step (n + 1) i c = some r := by
  match n with
  | 0 => cases h
  | n + 1 =>
    cases i with
    | block type body =>
      simp only [step, Option.bind_eq_bind, Option.bind_eq_some_iff] at h ⊢
      obtain ⟨arity, ha, r₁, hr, h⟩ := h
      exact ⟨arity, ha, r₁, run_succ hr, h⟩
    | loop type body =>
      simp only [step, Option.bind_eq_bind, Option.bind_eq_some_iff] at h ⊢
      obtain ⟨arity, ha, r₁, hr, h⟩ := h
      refine ⟨arity, ha, r₁, run_succ hr, ?_⟩
      split at h
      · exact step_succ h
      · exact h
    | ifThen type yes =>
      simp only [step] at h ⊢
      split at h
      · split at h
        · rename_i hw
          rw [if_pos hw]
          exact h
        · rename_i hw
          rw [if_neg hw]
          exact step_succ h
      · cases h
    | ifElse type yes no =>
      simp only [step] at h ⊢
      split at h
      · exact step_succ h
      · cases h
    | call f =>
      simp only [step, Option.bind_eq_bind, Option.bind_eq_some_iff] at h ⊢
      obtain ⟨callee, hf, u, hargs, h⟩ := h
      refine ⟨callee, hf, u, hargs, ?_⟩
      cases callee with
      | host source type => exact h
      | code type code =>
        simp only [Option.bind_eq_some_iff] at h ⊢
        obtain ⟨zeros, hz, r₁, hr, h⟩ := h
        exact ⟨zeros, hz, r₁, run_succ hr, h⟩
    | _ => exact h

theorem run_succ {n : Nat} {code : List Instr} {c : Config σ} {r : Exit × Config σ}
    (h : I.run n code c = some r) : I.run (n + 1) code c = some r := by
  match n with
  | 0 => cases h
  | n + 1 =>
    match code with
    | [] => exact h
    | i :: rest =>
      simp only [run, Option.bind_eq_bind, Option.bind_eq_some_iff] at h ⊢
      obtain ⟨r₁, hr, h⟩ := h
      refine ⟨r₁, step_succ hr, ?_⟩
      split at h
      · exact run_succ h
      · exact h

end

theorem step_mono {n m : Nat} (hnm : n ≤ m) {i : Instr} {c : Config σ} {r : Exit × Config σ}
    (h : I.step n i c = some r) : I.step m i c = some r := by
  induction hnm with
  | refl => exact h
  | step _ ih => exact step_succ ih

theorem run_mono {n m : Nat} (hnm : n ≤ m) {code : List Instr} {c : Config σ}
    {r : Exit × Config σ} (h : I.run n code c = some r) : I.run m code c = some r := by
  induction hnm with
  | refl => exact h
  | step _ ih => exact run_succ ih

/-! ## Runs -/

/-- An instruction ends in the given way, if there is enough fuel. -/
def Steps (I : Instance σ) (i : Instr) (c : Config σ) (r : Exit × Config σ) : Prop :=
  ∃ n, I.step n i c = some r

/-- Code ends in the given way, if there is enough fuel. -/
def Runs (I : Instance σ) (code : List Instr) (c : Config σ) (r : Exit × Config σ) : Prop :=
  ∃ n, I.run n code c = some r

/-- Code ends in one way at most. -/
theorem Runs.unique {code : List Instr} {c : Config σ} {r r' : Exit × Config σ}
    (h : I.Runs code c r) (h' : I.Runs code c r') : r = r' := by
  obtain ⟨n, hn⟩ := h
  obtain ⟨n', hn'⟩ := h'
  have := run_mono (Nat.le_max_left n n') hn
  rw [run_mono (Nat.le_max_right n n') hn'] at this
  exact (Option.some.inj this).symm

namespace Runs

variable {i : Instr} {code code' rest : List Instr} {c c' : Config σ} {r : Exit × Config σ}
  {k : Nat}

theorem nil : I.Runs [] c (.done, c) := ⟨1, rfl⟩

theorem cons (h : I.Steps i c (.done, c')) (h' : I.Runs rest c' r) : I.Runs (i :: rest) c r := by
  obtain ⟨n, hn⟩ := h
  obtain ⟨m, hm⟩ := h'
  refine ⟨max n m + 1, ?_⟩
  simp only [run, step_mono (Nat.le_max_left n m) hn, run_mono (Nat.le_max_right n m) hm,
    Option.bind_eq_bind, Option.bind_some]

theorem cons_branch (h : I.Steps i c (.branch k, c')) :
    I.Runs (i :: rest) c (.branch k, c') := by
  obtain ⟨n, hn⟩ := h
  exact ⟨n + 1, by simp only [run, hn, Option.bind_eq_bind, Option.bind_some, Option.pure_def]⟩

theorem one (h : I.Steps i c r) : I.Runs [i] c r := by
  obtain ⟨exit, c'⟩ := r
  cases exit with
  | done => exact cons h nil
  | branch k => exact cons_branch h

/-- What comes first either ends behind its last instruction or ends everything. -/
theorem of_cons (h : I.Runs (i :: rest) c r) :
    (∃ c', I.Steps i c (.done, c') ∧ I.Runs rest c' r) ∨
      ∃ k c', I.Steps i c (.branch k, c') ∧ r = (.branch k, c') := by
  obtain ⟨n, hn⟩ := h
  cases n with
  | zero => cases hn
  | succ n =>
    simp only [run, Option.bind_eq_bind, Option.bind_eq_some_iff] at hn
    obtain ⟨⟨exit, c'⟩, hi, hrest⟩ := hn
    cases exit with
    | done => exact .inl ⟨c', ⟨n, hi⟩, n, hrest⟩
    | branch k => exact .inr ⟨k, c', ⟨n, hi⟩, (Option.some.inj hrest).symm⟩

theorem append (h : I.Runs code c (.done, c')) (h' : I.Runs code' c' r) :
    I.Runs (code ++ code') c r := by
  induction code generalizing c with
  | nil =>
    obtain rfl : c' = c := congrArg Prod.snd (h.unique nil)
    exact h'
  | cons i rest ih =>
    obtain ⟨c₁, hi, hrest⟩ | ⟨k, c₁, -, heq⟩ := h.of_cons
    · exact cons hi (ih hrest)
    · cases heq

theorem append_branch (h : I.Runs code c (.branch k, c')) :
    I.Runs (code ++ code') c (.branch k, c') := by
  induction code generalizing c with
  | nil => nomatch h.unique nil
  | cons i rest ih =>
    obtain ⟨c₁, hi, hrest⟩ | ⟨k, c₁, hi, heq⟩ := h.of_cons
    · exact cons hi (ih hrest)
    · rw [heq]
      exact cons_branch hi

end Runs

/-! ## The rules of the instructions -/

namespace Steps

variable {w w' : World σ} {ls ls' st st' : List Value} {v : Value} {i k : Nat}

theorem i32Const (x : UInt32) :
    I.Steps (.i32Const x) ⟨w, ls, st⟩ (.done, ⟨w, ls, .i32 x :: st⟩) := ⟨1, rfl⟩

theorem f64Const (x : Binary64) :
    I.Steps (.f64Const x) ⟨w, ls, st⟩ (.done, ⟨w, ls, .f64 x :: st⟩) := ⟨1, rfl⟩

theorem i32Eqz (x : UInt32) :
    I.Steps .i32Eqz ⟨w, ls, .i32 x :: st⟩ (.done, ⟨w, ls, .i32 (if x = 0 then 1 else 0) :: st⟩) :=
  ⟨1, rfl⟩

theorem drop : I.Steps .drop ⟨w, ls, v :: st⟩ (.done, ⟨w, ls, st⟩) := ⟨1, rfl⟩

theorem localGet (h : ls[i]? = some v) :
    I.Steps (.localGet i) ⟨w, ls, st⟩ (.done, ⟨w, ls, v :: st⟩) :=
  ⟨1, by simp only [step, h, Option.bind_eq_bind, Option.bind_some, Option.pure_def]⟩

theorem localSet (h : i < ls.length) :
    I.Steps (.localSet i) ⟨w, ls, v :: st⟩ (.done, ⟨w, ls.set i v, st⟩) :=
  ⟨1, by simp only [step, if_pos h]⟩

theorem globalGet (h : w.globals[i]? = some v) :
    I.Steps (.globalGet i) ⟨w, ls, st⟩ (.done, ⟨w, ls, v :: st⟩) :=
  ⟨1, by simp only [step, h, Option.bind_eq_bind, Option.bind_some, Option.pure_def]⟩

theorem globalSet (h : i < w.globals.length) :
    I.Steps (.globalSet i) ⟨w, ls, v :: st⟩
      (.done, ⟨{ w with globals := w.globals.set i v }, ls, st⟩) :=
  ⟨1, by simp only [step, if_pos h]⟩

theorem br (k : Nat) (c : Config σ) : I.Steps (.br k) c (.branch k, c) := ⟨1, rfl⟩

theorem brIf (x : UInt32) (k : Nat) :
    I.Steps (.brIf k) ⟨w, ls, .i32 x :: st⟩
      (if x = 0 then .done else .branch k, ⟨w, ls, st⟩) := ⟨1, rfl⟩

theorem brTable (x : UInt32) (depths : List Nat) (last : Nat) :
    I.Steps (.brTable depths last) ⟨w, ls, .i32 x :: st⟩
      (.branch (depths.getD x.toNat last), ⟨w, ls, st⟩) := ⟨1, rfl⟩

theorem take_args {args : List Value} {params : List ValType} (h : args.map Value.type = params)
    (st : List Value) :
    ((args.reverse ++ st).take params.length).reverse = args ∧
      (args.reverse ++ st).drop params.length = st := by
  have hlen : params.length = args.reverse.length := by
    rw [← h, List.length_map, List.length_reverse]
  rw [hlen, List.take_left, List.drop_left, List.reverse_reverse]
  exact ⟨rfl, rfl⟩

/-- An imported function takes its arguments from the stack, the last one from the top. -/
theorem callHost {f : Nat} {source : ImportRef} {type : FuncType} {args : List Value}
    (hf : I.callee? f = some (.host source type)) (hargs : args.map Value.type = type.params) :
    I.Steps (.call f) ⟨w, ls, args.reverse ++ st⟩
      (.done, ⟨(w.invoke I.host source args).2, ls,
        (w.invoke I.host source args).1.reverse ++ st⟩) := by
  obtain ⟨htake, hdrop⟩ := take_args hargs st
  refine ⟨1, ?_⟩
  simp only [step, hf, Option.bind_eq_bind, Option.bind_some, Callee.type, htake, hdrop, hargs,
    guard, if_true, Option.pure_def]

/-- A function without parameters and results has locals of its own. -/
theorem callCode {f : Nat} {code : Code} {zeros : List Value}
    (hf : I.callee? f = some (.code ⟨[], []⟩ code)) (hz : code.zeros? = some zeros)
    (h : I.Runs code.body ⟨w, zeros, []⟩ (.done, ⟨w', ls', st'⟩)) :
    I.Steps (.call f) ⟨w, ls, st⟩ (.done, ⟨w', ls, st⟩) := by
  obtain ⟨n, hn⟩ := h
  refine ⟨n + 1, ?_⟩
  simp only [step, hf, Option.bind_eq_bind, Option.bind_some, Callee.type, List.length_nil,
    List.take_zero, List.reverse_nil, List.map_nil, guard, if_true, Option.pure_def, hz,
    List.nil_append, hn, leave, List.drop_zero]

theorem block {type : BlockType} {arity : Nat} {body : List Instr} {r : Exit × Config σ}
    (ha : type.arity? = some arity) (h : I.Runs body ⟨w, ls, []⟩ r) :
    I.Steps (.block type body) ⟨w, ls, st⟩ (leave arity st r) := by
  obtain ⟨n, hn⟩ := h
  exact ⟨n + 1, by
    simp only [step, ha, hn, Option.bind_eq_bind, Option.bind_some, Option.pure_def]⟩

/-- A block that gives a value. -/
theorem block_value {type : ValType} {body : List Instr}
    (h : I.Runs body ⟨w, ls, []⟩ (.done, ⟨w', ls', [v]⟩)) :
    I.Steps (.block (.value type) body) ⟨w, ls, st⟩ (.done, ⟨w', ls', v :: st⟩) :=
  show I.Steps _ _ (leave 1 st (.done, ⟨w', ls', [v]⟩)) from block rfl h

theorem ifThen {type : BlockType} {yes : List Instr} {x : UInt32} {r : Exit × Config σ}
    (hx : x ≠ 0) (h : I.Steps (.block type yes) ⟨w, ls, st⟩ r) :
    I.Steps (.ifThen type yes) ⟨w, ls, .i32 x :: st⟩ r := by
  obtain ⟨n, hn⟩ := h
  exact ⟨n + 1, by simp only [step, if_neg hx, hn]⟩

theorem ifThen_zero {type : BlockType} {yes : List Instr} :
    I.Steps (.ifThen type yes) ⟨w, ls, .i32 0 :: st⟩ (.done, ⟨w, ls, st⟩) := ⟨1, rfl⟩

theorem ifElse {type : BlockType} {yes no : List Instr} {x : UInt32} {r : Exit × Config σ}
    (h : I.Steps (.block type (if x = 0 then no else yes)) ⟨w, ls, st⟩ r) :
    I.Steps (.ifElse type yes no) ⟨w, ls, .i32 x :: st⟩ r := by
  obtain ⟨n, hn⟩ := h
  exact ⟨n + 1, by simp only [step, hn]⟩

/-- A branch to a loop starts it again. -/
theorem loop_again {body : List Instr} {r : Exit × Config σ}
    (h : I.Runs body ⟨w, ls, []⟩ (.branch 0, ⟨w', ls', st'⟩))
    (h' : I.Steps (.loop .empty body) ⟨w', ls', st⟩ r) :
    I.Steps (.loop .empty body) ⟨w, ls, st⟩ r := by
  obtain ⟨n, hn⟩ := h
  obtain ⟨m, hm⟩ := h'
  refine ⟨max n m + 1, ?_⟩
  simp only [step, BlockType.arity?, run_mono (Nat.le_max_left n m) hn,
    Option.bind_eq_bind, Option.bind_some, step_mono (Nat.le_max_right n m) hm]

theorem loop_done {body : List Instr} (h : I.Runs body ⟨w, ls, []⟩ (.done, ⟨w', ls', st'⟩)) :
    I.Steps (.loop .empty body) ⟨w, ls, st⟩ (.done, ⟨w', ls', st⟩) := by
  obtain ⟨n, hn⟩ := h
  exact ⟨n + 1, by
    simp only [step, BlockType.arity?, hn, Option.bind_eq_bind, Option.bind_some, leave,
      List.take_zero, List.nil_append, Option.pure_def]⟩

theorem loop_branch {body : List Instr} {c : Config σ}
    (h : I.Runs body ⟨w, ls, []⟩ (.branch (k + 1), c)) :
    I.Steps (.loop .empty body) ⟨w, ls, st⟩ (.branch k, c) := by
  obtain ⟨n, hn⟩ := h
  exact ⟨n + 1, by
    simp only [step, BlockType.arity?, hn, Option.bind_eq_bind, Option.bind_some, leave,
      Option.pure_def]⟩

end Steps

/-! ## Taking runs apart -/

variable {w : World σ} {ls st : List Value} {c c' : Config σ} {r : Exit × Config σ}

theorem runs_cons_iff {i : Instr} {rest : List Instr} :
    I.Runs (i :: rest) c r ↔ (∃ c', I.Steps i c (.done, c') ∧ I.Runs rest c' r) ∨
      ∃ k c', I.Steps i c (.branch k, c') ∧ r = (.branch k, c') := by
  constructor
  · exact Runs.of_cons
  · rintro (⟨c', hi, hrest⟩ | ⟨k, c', hi, rfl⟩)
    · exact .cons hi hrest
    · exact .cons_branch hi

theorem runs_singleton_iff {i : Instr} : I.Runs [i] c r ↔ I.Steps i c r := by
  constructor
  · intro h
    obtain ⟨c', hi, hnil⟩ | ⟨k, c', hi, rfl⟩ := h.of_cons
    · rwa [hnil.unique .nil]
    · exact hi
  · exact .one

theorem Runs.of_append {code code' : List Instr} (h : I.Runs (code ++ code') c r)
    (h' : I.Runs code c (.done, c')) : I.Runs code' c' r := by
  induction code generalizing c with
  | nil =>
    obtain rfl : c' = c := congrArg Prod.snd (h'.unique .nil)
    exact h
  | cons i rest ih =>
    obtain ⟨c₁, hi, hrest⟩ | ⟨k, c₁, -, heq⟩ := h'.of_cons
    · obtain ⟨c₂, hi', h⟩ | ⟨k, c₂, hi', -⟩ := h.of_cons
      · obtain rfl : c₁ = c₂ := congrArg Prod.snd ((Runs.one hi).unique (.one hi'))
        exact ih h hrest
      · cases (Runs.one hi).unique (.one hi')
    · cases heq

theorem steps_block_iff {body : List Instr} :
    I.Steps (.block .empty body) ⟨w, ls, st⟩ r ↔
      ∃ r', I.Runs body ⟨w, ls, []⟩ r' ∧ r = leave 0 st r' := by
  constructor
  · rintro ⟨n, hn⟩
    cases n with
    | zero => cases hn
    | succ n =>
      simp only [step, BlockType.arity?, Option.bind_eq_bind, Option.bind_some,
        Option.bind_eq_some_iff, Option.pure_def, Option.some.injEq] at hn
      obtain ⟨r', hr', rfl⟩ := hn
      exact ⟨r', ⟨n, hr'⟩, rfl⟩
  · rintro ⟨r', hr', rfl⟩
    exact .block rfl hr'

/-- A loop that branches to itself again and again does not end. -/
theorem not_steps_loop {body : List Instr} {P : World σ → List Value → Prop}
    (hP : ∀ w ls, P w ls → ∃ w' ls' st', I.Runs body ⟨w, ls, []⟩ (.branch 0, ⟨w', ls', st'⟩) ∧
      P w' ls') (h : P w ls) : ¬I.Steps (.loop .empty body) ⟨w, ls, st⟩ r := by
  rintro ⟨n, hn⟩
  induction n generalizing w ls with
  | zero => cases hn
  | succ n ih =>
    simp only [step, BlockType.arity?, Option.bind_eq_bind, Option.bind_some,
      Option.bind_eq_some_iff] at hn
    obtain ⟨r₁, hr₁, hn⟩ := hn
    obtain ⟨w', ls', st', hbody, h'⟩ := hP w ls h
    obtain rfl : r₁ = _ := Runs.unique ⟨n, hr₁⟩ hbody
    exact ih h' hn

end Instance

end ScriptWasm.Wasm
