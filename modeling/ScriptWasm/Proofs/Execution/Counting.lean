import Mathlib.Tactic.Ring
import ScriptWasm.Proofs.Execution.Readings

/-!
# How often counting loops run

A counting loop goes from its start to its end by its step. The end and the step are evaluated once,
so what the body does to variables does not matter, unless it assigns the variable of the loop. If
the three of them are integers, then the number of passes is known beforehand, and so is the value
of the variable in each of them. A loop whose step is zero runs forever or not at all.

Integers are values of words, and it is assumed that the embedder adds and compares them exactly.
The invariant is about the state in which the loop comes to its test: the words for the variable,
the end and the step stand for what they should. The two words that are kept in locals stay there,
since code of the body only uses locals of its own.
-/

namespace ScriptWasm

open Wasm

variable {σ : Type}

/-! ## Passes -/

/-- A value that a loop goes on with, if it goes by a step to an end. -/
def InRange (last by_ v : Int) : Prop := if by_ < 0 then last ≤ v else v ≤ last

/-- How often a loop runs that goes by a step from a start to an end. A loop whose step is zero is
only counted if it does not run. -/
def passCount (first last by_ : Int) : Nat :=
  if 0 < by_ then ((last - first) / by_ + 1).toNat
  else if by_ < 0 then ((first - last) / (-by_) + 1).toNat
  else 0

/-- The passes are those whose values are in range. -/
theorem lt_passCount_iff {first last by_ : Int} (hzero : by_ = 0 → last < first) (k : Nat) :
    k < passCount first last by_ ↔ InRange last by_ (first + k * by_) := by
  rw [passCount, InRange]
  obtain hneg | rfl | hpos := Int.lt_trichotomy by_ 0
  · rw [if_neg (by omega), if_pos hneg, if_pos hneg, Int.lt_toNat, Int.lt_add_one_iff,
      Int.le_ediv_iff_mul_le (by omega), Int.mul_neg]
    omega
  · have hlt := hzero rfl
    simp only [Int.lt_irrefl, if_false, Nat.not_lt_zero, false_iff]
    omega
  · rw [if_pos hpos, if_neg (by omega), Int.lt_toNat, Int.lt_add_one_iff,
      Int.le_ediv_iff_mul_le hpos]
    omega

theorem inRange_iff {first last by_ : Int} (hzero : by_ = 0 → last < first) :
    InRange last by_ first ↔ 0 < passCount first last by_ := by
  rw [lt_passCount_iff hzero, Int.natCast_zero, Int.zero_mul, Int.add_zero]

theorem add_succ_mul (first by_ : Int) (k : Nat) :
    first + (k + 1 : Nat) * by_ = first + by_ + k * by_ := by
  push_cast
  ring

theorem lt_add_of_zero {first last by_ : Int} (hzero : by_ = 0 → last < first) :
    by_ = 0 → last < first + by_ := by
  rintro rfl
  rw [Int.add_zero]
  exact hzero rfl

/-- After the first pass there is one pass less to go. -/
theorem passCount_add {first last by_ : Int} (hzero : by_ = 0 → last < first) {n : Nat}
    (hn : passCount first last by_ = n + 1) : passCount (first + by_) last by_ = n := by
  refine eq_of_forall_lt_iff fun k ↦ ?_
  rw [lt_passCount_iff (lt_add_of_zero hzero), ← add_succ_mul, ← lt_passCount_iff hzero, hn,
    Nat.succ_lt_succ_iff]

/-! ## Integers -/

namespace Reading

/-- The value of a comparison holds as a condition if its operands are in a relation. -/
def Compares {e : Embedder σ} (ρ : Reading e Int) (b : Bindings) (op : Operator)
    (R : Int → Int → Prop) : Prop :=
  ∀ s left right x y, ρ.stands s left x → ρ.stands s right y →
    let compared := e.answer b op [.i32 left, .i32 right] s
    let tested := e.answer b .toBoolean [.i32 compared.1] compared.2
    ρ.sound tested.2 → (tested.1 ≠ 0 ↔ R x y)

/-- Integers are made, added and compared exactly. -/
structure Exact {e : Embedder σ} (ρ : Reading e Int) (b : Bindings) : Prop where
  zero : ∀ s, ρ.sound (e.answer b .ofNumber [.f64 .zero] s).2 →
    ρ.stands (e.answer b .ofNumber [.f64 .zero] s).2 (e.answer b .ofNumber [.f64 .zero] s).1 0
  one : ∀ s, ρ.sound (e.answer b .ofNumber [.f64 Setting.one] s).2 →
    ρ.stands (e.answer b .ofNumber [.f64 Setting.one] s).2
      (e.answer b .ofNumber [.f64 Setting.one] s).1 1
  add : ∀ s left right x y, ρ.stands s left x → ρ.stands s right y →
    ρ.sound (e.answer b .add [.i32 left, .i32 right] s).2 →
    ρ.stands (e.answer b .add [.i32 left, .i32 right] s).2
      (e.answer b .add [.i32 left, .i32 right] s).1 (x + y)
  lessThan : ρ.Compares b .lessThan (· < ·)
  lessThanOrEqual : ρ.Compares b .lessThanOrEqual (· ≤ ·)
  greaterThanOrEqual : ρ.Compares b .greaterThanOrEqual (· ≥ ·)

variable {m : Meaning σ} {ρ : Reading m.embedder Int} {s : m.State}

theorem Compares.truth_iff {op : Operator} {R : Int → Int → Prop}
    (h : ρ.Compares m.host.operators op R) {left right : UInt32} {x y : Int}
    (hx : ρ.stands s.host left x) (hy : ρ.stands s.host right y)
    (hs : ρ.sound (m.truth (m.operate op [.i32 left, .i32 right] s).1
      (m.operate op [.i32 left, .i32 right] s).2).2.host) :
    (m.truth (m.operate op [.i32 left, .i32 right] s).1
      (m.operate op [.i32 left, .i32 right] s).2).1 = true ↔ R x y := by
  have htested := h s.host left right x y hx hy
  simp only [← Meaning.operate_eq_answer] at htested
  exact decide_eq_true_iff.trans (htested hs)

end Reading

/-! ## The test of a loop -/

namespace Meaning

variable {m : Meaning σ} {ρ : Reading m.embedder Int} {name : String} {k : Counting}
  {last by_ v : Int} {s s' : m.State}

/-- What holds when a loop comes to its test: the words that it goes by stand for the value that the
variable has, for the end and for the step, and the direction is the one of the step. -/
structure Counts (m : Meaning σ) (ρ : Reading m.embedder Int) (name : String) (k : Counting)
    (last by_ v : Int) (s : m.State) : Prop where
  value : ρ.stands s.host (m.read name s) v
  stop : ρ.stands s.host k.stop last
  step : ρ.stands s.host k.step by_
  down : k.down = true ↔ by_ < 0

/-- Values are kept as long as the variable is. -/
theorem Counts.of_leads (h : m.Counts ρ name k last by_ v s)
    (hleads : m.embedder.Leads s.host s'.host) (hread : m.read name s' = m.read name s)
    (hs : ρ.sound s'.host) : m.Counts ρ name k last by_ v s' where
  value := by
    rw [hread]
    exact ρ.stands_of_leads hleads hs h.value
  stop := ρ.stands_of_leads hleads hs h.stop
  step := ρ.stands_of_leads hleads hs h.step
  down := h.down

theorem Counts.goesOn_iff (h : m.Counts ρ name k last by_ v s) (hρ : ρ.Exact m.host.operators)
    (hs : ρ.sound (m.goesOn name k s).2.host) :
    (m.goesOn name k s).1 = true ↔ InRange last by_ v := by
  rw [InRange]
  by_cases hdown : by_ < 0
  · have hk := h.down.mpr hdown
    simp only [goesOn, hk, if_true] at hs ⊢
    rw [if_pos hdown]
    exact hρ.greaterThanOrEqual.truth_iff h.value h.stop hs
  · have hk : k.down = false := by
      rw [← Bool.not_eq_true]
      exact fun hk ↦ hdown (h.down.mp hk)
    simp only [goesOn, hk, Bool.false_eq_true, if_false] at hs ⊢
    rw [if_neg hdown]
    exact hρ.lessThanOrEqual.truth_iff h.value h.stop hs

/-- After a pass the variable is one step further. -/
theorem Counts.advance (h : m.Counts ρ name k last by_ v s) (hρ : ρ.Exact m.host.operators)
    (hslot : m.slot name < m.symbols.length) (hs : ρ.sound (m.advance name k s).host) :
    m.Counts ρ name k last by_ (v + by_) (m.advance name k s) where
  value := by
    have hadd := hρ.add s.host (m.read name s) k.step v by_ h.value h.step
    rw [← operate_eq_answer] at hadd
    rw [Meaning.advance, read_write hslot]
    exact hadd hs
  stop := ρ.stands_of_leads (leads_advance name k s) hs h.stop
  step := ρ.stands_of_leads (leads_advance name k s) hs h.step
  down := h.down

/-! ## Entering a loop -/

/-- What the start, the end and the step of a loop are when it is entered. Without a step, a loop
goes by one. -/
structure Bounds (m : Meaning σ) (ρ : Reading m.embedder Int) (name : String) (start stop : Expr)
    (step : Option Expr) (s : m.State) (first last by_ : Int) : Prop where
  gives_start : ρ.Gives (m.eval start s) first
  gives_stop : ρ.Gives (m.eval stop (m.started name start s)) last
  gives_step : match step with
    | none => by_ = 1
    | some step => ρ.Gives (m.eval step (m.eval stop (m.started name start s)).2) by_

theorem descends_iff (hρ : ρ.Exact m.host.operators) {step : UInt32}
    (hstep : ρ.stands s.host step by_) (hs : ρ.sound (m.descends step s).2.host) :
    (m.descends step s).1 = true ↔ by_ < 0 := by
  let zero := m.number .zero s
  have hless := consults_operate (m := m) .lessThan [.i32 step, .i32 zero.1] zero.2
  have hzero : ρ.sound zero.2.host :=
    ρ.sound_of_leads (hless.trans (consults_truth _ _)).leads hs
  have hstands := hρ.zero s.host
  rw [← operate_eq_answer] at hstands
  exact hρ.lessThan.truth_iff (ρ.stands_of_leads (consults_operate _ _ s).leads hzero hstep)
    (hstands hzero) hs

theorem Bounds.counts {start stop : Expr} {step : Option Expr} {first : Int}
    (h : m.Bounds ρ name start stop step s first last by_) (hρ : ρ.Exact m.host.operators)
    (hslot : m.slot name < m.symbols.length)
    (hs : ρ.sound (m.enter name start stop step s).2.host) :
    m.Counts ρ name (m.enter name start stop step s).1 last by_ first
      (m.enter name start stop step s).2 := by
  have hstop := consults_eval stop (m.started name start s)
  have hvariable : ρ.stands (m.enter name start stop step s).2.host
      (m.read name (m.enter name start stop step s).2) first := by
    rw [(consults_enter name start stop step s).read, started, read_write hslot]
    exact ρ.stands_of_leads (consults_enter name start stop step s).leads hs h.gives_start
  cases step with
  | none =>
    obtain rfl : by_ = 1 := h.gives_step
    have hone := hρ.one (m.eval stop (m.started name start s)).2.host
    rw [← operate_eq_answer] at hone
    exact ⟨hvariable, ρ.stands_of_leads (consults_operate _ _ _).leads hs h.gives_stop, hone hs,
      by simp [enter]⟩
  | some step =>
    have hstep := consults_eval step (m.eval stop (m.started name start s)).2
    have hdescends := consults_descends (m.eval step (m.eval stop (m.started name start s)).2).1
      (m.eval step (m.eval stop (m.started name start s)).2).2
    exact ⟨hvariable, ρ.stands_of_leads (hstep.trans hdescends).leads hs h.gives_stop,
      ρ.stands_of_leads hdescends.leads hs h.gives_step, descends_iff hρ h.gives_step hs⟩

/-! ## Going through passes -/

/-- The states in which a loop comes to its test, if it ends all its passes. -/
inductive Reaches (m : Meaning σ) (name : String) (k : Counting) (body : List Stmt)
    (s₀ : m.State) : m.State → Prop
  | first : Reaches m name k body s₀ s₀
  | again {n : Nat} {s s' : m.State} (h : Reaches m name k body s₀ s)
    (hgoes : (m.goesOn name k s).1 = true)
    (hbody : m.runStmts n body (m.goesOn name k s).2 = some (.next, s')) :
    Reaches m name k body s₀ (m.advance name k s')

/-- A loop can make all its passes: the body comes to its end whenever it is run, with the variable
as it was, and the embedder is sound after every test. -/
structure Passable (m : Meaning σ) (ρ : Reading m.embedder Int) (name : String) (k : Counting)
    (body : List Stmt) (s₀ : m.State) : Prop where
  sound : ∀ s, m.Reaches name k body s₀ s → ρ.sound (m.goesOn name k s).2.host
  ends : ∀ s, m.Reaches name k body s₀ s → (m.goesOn name k s).1 = true →
    ∃ n s', m.runStmts n body (m.goesOn name k s).2 = some (.next, s') ∧
      m.read name s' = m.read name (m.goesOn name k s).2

variable {body : List Stmt} {s₀ : m.State}

/-- One pass: it begins with the value that was tested, and the next test is one step further. -/
theorem Counts.pass (h : m.Counts ρ name k last by_ v s) (hρ : ρ.Exact m.host.operators)
    (hslot : m.slot name < m.symbols.length) (hpassable : m.Passable ρ name k body s₀)
    (hreaches : m.Reaches name k body s₀ s) (hrange : InRange last by_ v) :
    ρ.stands (m.goesOn name k s).2.host (m.read name (m.goesOn name k s).2) v ∧
      ∃ n s', m.runStmts n body (m.goesOn name k s).2 = some (.next, s') ∧
        m.Reaches name k body s₀ (m.advance name k s') ∧
        m.Counts ρ name k last by_ (v + by_) (m.advance name k s') := by
  have hsound := hpassable.sound s hreaches
  have hgoes := (h.goesOn_iff hρ hsound).mpr hrange
  have htest := consults_goesOn name k s
  have hbegin := h.of_leads htest.leads (htest.read name) hsound
  obtain ⟨n, s', hbody, hread⟩ := hpassable.ends s hreaches hgoes
  have hreaches' : m.Reaches name k body s₀ (m.advance name k s') := .again hreaches hgoes hbody
  -- The embedder is sound after the next test, and therefore before it.
  have hadvance : ρ.sound (m.advance name k s').host :=
    ρ.sound_of_leads (consults_goesOn name k _).leads (hpassable.sound _ hreaches')
  have hend := hbegin.of_leads (leads_runStmts hbody) hread
    (ρ.sound_of_leads (leads_advance name k s') hadvance)
  exact ⟨hbegin.value, n, s', hbody, hreaches', hend.advance hρ hslot hadvance⟩

end Meaning

/-! ## Passes of code -/

namespace Wasm.Instance

variable {I : Instance σ} {condition body next : List Instr} {w w' : World σ}
  {ls ls' st : List Value} {starts : List (World σ)}

/-- A loop makes passes; `starts` has the worlds in which the code of the body begins. Each pass has
a condition in front of it that holds, and behind the body it is got ready for the next one. -/
inductive Passes (I : Instance σ) (condition body next : List Instr) :
    World σ → List Value → List (World σ) → World σ → List Value → Prop
  | stop {w w' : World σ} {ls ls' : List Value}
    (h : I.Runs condition ⟨w, ls, []⟩ (.done, ⟨w', ls', [.i32 0]⟩)) :
    Passes I condition body next w ls [] w' ls'
  | pass {x : UInt32} {w w₁ w₂ w₃ w' : World σ} {ls ls₁ ls₂ ls₃ ls' : List Value}
    {starts : List (World σ)} (h : I.Runs condition ⟨w, ls, []⟩ (.done, ⟨w₁, ls₁, [.i32 x]⟩))
    (hx : x ≠ 0) (hbody : I.Runs body ⟨w₁, ls₁, []⟩ (.done, ⟨w₂, ls₂, []⟩))
    (hnext : I.Runs next ⟨w₂, ls₂, []⟩ (.done, ⟨w₃, ls₃, []⟩))
    (hrest : Passes I condition body next w₃ ls₃ starts w' ls') :
    Passes I condition body next w ls (w₁ :: starts) w' ls'

theorem Passes.runs (h : I.Passes condition body next w ls starts w' ls') :
    I.Runs [Setting.whileLoop condition (body ++ next)] ⟨w, ls, st⟩ (.done, ⟨w', ls', st⟩) := by
  have hsteps : I.Steps (Setting.passes condition (body ++ next)) ⟨w, ls, []⟩
      (.branch 0, ⟨w', ls', []⟩) := by
    induction h with
    | stop h => exact .passes_exit h
    | pass h hx hbody hnext _ ih => exact .passes_again h hx (hbody.append hnext) ih
  exact .one (.whileLoop hsteps)

/-- A loop whose condition always holds does not end. -/
theorem not_runs_whileLoop {P : World σ → List Value → Prop}
    (hP : ∀ w ls, P w ls → ∃ x w₁ ls₁ w₂ ls₂ st₂, x ≠ 0 ∧
      I.Runs condition ⟨w, ls, []⟩ (.done, ⟨w₁, ls₁, [.i32 x]⟩) ∧
      I.Runs body ⟨w₁, ls₁, []⟩ (.done, ⟨w₂, ls₂, st₂⟩) ∧ P w₂ ls₂) (h : P w ls)
    (r : Exit × Config σ) : ¬I.Runs [Setting.whileLoop condition body] ⟨w, ls, st⟩ r := by
  intro hruns
  rw [runs_singleton_iff, Setting.whileLoop, steps_block_iff] at hruns
  obtain ⟨r', hloop, -⟩ := hruns
  rw [runs_singleton_iff] at hloop
  refine not_steps_loop (fun w ls hw ↦ ?_) h hloop
  obtain ⟨x, w₁, ls₁, w₂, ls₂, st₂, hx, hcondition, hbody, hw₂⟩ := hP w ls hw
  exact ⟨w₂, ls₂, st₂, (hcondition.pass hx hbody).append (.one (.br 0 _)), hw₂⟩

end Wasm.Instance

/-- Code of the parts of a loop: the test, the body, and the step to the next value. It relies on
locals below an index. -/
structure LoopCode (I : Instance σ) (m : Meaning σ) (name : String) (k : Meaning.Counting)
    (body : List Stmt) (bound : Nat) (ls : List Value) (condition bcode next : List Instr) :
    Prop where
  decides : ∀ ls', Kept bound ls ls' → Decides I m (m.goesOn name k) ls' condition
  carries : ∀ ls', Kept bound ls ls' → ∀ n (s s' : m.State),
    m.runStmts n body s = some (.next, s') →
    ∃ ls'', Kept bound ls ls'' ∧ I.Runs bcode ⟨s.world, ls', []⟩ (.done, ⟨s'.world, ls'', []⟩)
  advances : ∀ ls', Kept bound ls ls' → ∀ s : m.State,
    I.Runs next ⟨s.world, ls', []⟩ (.done, ⟨(m.advance name k s).world, ls', []⟩)

namespace LoopCode

variable {I : Instance σ} {m : Meaning σ} {name : String} {k : Meaning.Counting}
  {body : List Stmt} {bound : Nat} {ls ls' : List Value} {condition bcode next : List Instr}
  {ρ : Reading m.embedder Int} {last by_ v : Int} {s s₀ : m.State}

/-- The code makes the passes that are counted. -/
theorem passes (h : LoopCode I m name k body bound ls condition bcode next)
    (hρ : ρ.Exact m.host.operators) (hslot : m.slot name < m.symbols.length)
    (hpassable : m.Passable ρ name k body s₀) (hzero : by_ = 0 → last < v)
    (hcounts : m.Counts ρ name k last by_ v s) (hreaches : m.Reaches name k body s₀ s)
    (hkept : Kept bound ls ls') :
    ∃ (starts : List m.State) (s' : m.State) (ls'' : List Value),
      I.Passes condition bcode next s.world ls' (starts.map Store.world) s'.world ls'' ∧
      starts.length = passCount v last by_ ∧
      (∀ (i : Nat) (t : m.State), starts[i]? = some t →
        ρ.stands t.host (m.read name t) (v + i * by_)) ∧
      ρ.stands s'.host (m.read name s') (v + passCount v last by_ * by_) ∧ Kept bound ls ls'' := by
  -- By induction on the number of passes that are left.
  obtain ⟨n, hn⟩ : ∃ n, passCount v last by_ = n := ⟨_, rfl⟩
  rw [hn]
  induction n generalizing v s ls' with
  | zero =>
    -- The value is out of range, and the test that finds so leaves the variable alone.
    have hsound := hpassable.sound s hreaches
    have htest := Meaning.consults_goesOn name k s
    have hstop : (m.goesOn name k s).1 ≠ true := by
      rw [Ne, hcounts.goesOn_iff hρ hsound, inRange_iff hzero, hn]
      exact Nat.lt_irrefl 0
    obtain ⟨x, hcondition, hx⟩ := h.decides ls' hkept s []
    obtain rfl : x = 0 := by
      by_contra hne
      exact hstop (hx.mpr hne)
    refine ⟨[], _, ls', .stop hcondition, rfl, by simp, ?_, hkept⟩
    rw [Int.natCast_zero, Int.zero_mul, Int.add_zero]
    exact (hcounts.of_leads htest.leads (htest.read name) hsound).value
  | succ n ih =>
    have hrange : InRange last by_ v := (inRange_iff hzero).mpr (by omega)
    have hgoes := (hcounts.goesOn_iff hρ (hpassable.sound s hreaches)).mpr hrange
    obtain ⟨hbegin, fuel, s₁, hbody, hreaches', hcounts'⟩ :=
      hcounts.pass hρ hslot hpassable hreaches hrange
    obtain ⟨x, hcondition, hx⟩ := h.decides ls' hkept s []
    obtain ⟨ls₁, hkept₁, hbcode⟩ := h.carries ls' hkept fuel _ _ hbody
    obtain ⟨starts, s', ls'', hpasses, hlength, hstarts, hend, hkept'⟩ :=
      ih (lt_add_of_zero hzero) hcounts' hreaches' hkept₁ (passCount_add hzero hn)
    refine ⟨(m.goesOn name k s).2 :: starts, s', ls'',
      .pass hcondition (hx.mp hgoes) hbcode (h.advances ls₁ hkept₁ s₁) hpasses,
      congrArg (· + 1) hlength, ?_, ?_, hkept'⟩
    · rintro (_ | i) t ht
      · cases ht
        rw [Int.natCast_zero, Int.zero_mul, Int.add_zero]
        exact hbegin
      · rw [add_succ_mul]
        exact hstarts i t ht
    · rw [add_succ_mul]
      exact hend

/-- A loop that does not move from a value in range does not end. -/
theorem not_runs (h : LoopCode I m name k body bound ls condition bcode next)
    (hρ : ρ.Exact m.host.operators) (hslot : m.slot name < m.symbols.length)
    (hpassable : m.Passable ρ name k body s₀) (hle : v ≤ last)
    (hcounts : m.Counts ρ name k last 0 v s₀) (st : List Value) (r : Exit × Config σ) :
    ¬I.Runs [Setting.whileLoop condition (bcode ++ next)] ⟨s₀.world, ls, st⟩ r := by
  have hrange : InRange last 0 v := by
    rw [InRange, if_neg (Int.lt_irrefl 0)]
    exact hle
  refine Instance.not_runs_whileLoop (P := fun w ls' ↦ ∃ s : m.State, w = s.world ∧
    m.Reaches name k body s₀ s ∧ m.Counts ρ name k last 0 v s ∧ Kept bound ls ls') ?_
    ⟨s₀, rfl, .first, hcounts, .refl _ _⟩ r
  rintro w ls' ⟨s, rfl, hreaches, hcounts, hkept⟩
  have hgoes := (hcounts.goesOn_iff hρ (hpassable.sound s hreaches)).mpr hrange
  obtain ⟨-, fuel, s₁, hbody, hreaches', hcounts'⟩ :=
    hcounts.pass hρ hslot hpassable hreaches hrange
  obtain ⟨x, hcondition, hx⟩ := h.decides ls' hkept s []
  obtain ⟨ls₁, hkept₁, hbcode⟩ := h.carries ls' hkept fuel _ _ hbody
  rw [Int.add_zero] at hcounts'
  exact ⟨x, _, ls', _, ls₁, [], hx.mp hgoes, hcondition,
    hbcode.append (h.advances ls₁ hkept₁ s₁), _, rfl, hreaches', hcounts', hkept₁⟩

end LoopCode

/-! ## The code of counting loops -/

namespace Deployment

variable (d : Deployment σ) {name : String} {start stop : Expr} {step : Option Expr}
  {body : List Stmt} {span : Span} {scope : Scope} {before after : Locals} {code : List Instr}
  {ls : List Value}

/-- The code of a counting loop enters it, and has the parts of a loop behind that. -/
theorem exists_loopCode (hstmt : .for name start stop step body span ∈ d.program.statements)
    (hcode : d.setting.lowerStmt scope (.for name start stop step body span) before =
      .ok (code, after)) (hfits : scope.Fits before.length) (hls : after.length ≤ ls.length)
    (s : d.meaning.State) (st : List Value) :
    d.meaning.slot name < d.meaning.symbols.length ∧
    ∃ enter condition bcode next inner ls₁,
      code = enter ++ [Setting.whileLoop condition (bcode ++ next)] ∧
      d.setting.lowerStmts scope.opened.opened body inner = .ok (bcode, after) ∧
      before.length ≤ inner.length ∧ Kept before.length ls ls₁ ∧
      d.machine.Runs enter ⟨s.world, ls, st⟩
        (.done, ⟨(d.meaning.enter name start stop step s).2.world, ls₁, st⟩) ∧
      LoopCode d.machine d.meaning name (d.meaning.enter name start stop step s).1 body
        inner.length ls₁ condition bcode next := by
  obtain ⟨hstart, hstop, hstep, ⟨kind, hbody⟩, hdemands⟩ := (d.coversStmt hstmt).for
  simp only [Setting.lowerStmt, Lowering.bind_eq_ok_iff, Lowering.lift_eq_ok_iff,
    Lowering.addLocal_eq_ok_iff, Lowering.pure_eq_ok_iff] at hcode
  obtain ⟨slot, before, ⟨hslot, rfl⟩, stopLocal, _, ⟨rfl, rfl⟩, by_, _, ⟨rfl, rfl⟩,
    ⟨enter, condition⟩, inner, hbounds, bcode, _, hb, add, _, ⟨hadd, rfl⟩, heq⟩ := hcode
  cases heq
  have hinner := (d.setting.grows_lowerBounds _ _ _ _ _ _).length_le hbounds
  have hafter := (d.setting.grows_lowerStmts _ _).length_le hb
  simp only [List.length_append, List.length_singleton] at hbounds hinner
  obtain ⟨hslot', hlt⟩ := d.implements.slot_eq hslot
  obtain ⟨ls₁, hkept, henter, hby, hdecides⟩ := d.implements.runs_lowerBounds hslot hstart.admitted
    hstop.admitted hstep.admitted (d.realizesAll hstart.demanded) (d.realizesAll hstop.demanded)
    (d.realizesAll hstep.demanded) hbounds (Nat.lt_succ_self _) (by simp)
    (Nat.le_trans hafter hls) s st
  refine ⟨hslot' ▸ hlt, enter, condition, bcode, _, inner, ls₁, rfl, hb, by omega, hkept, henter,
    hdecides, ?_, ?_⟩
  · -- The locals of the body lie above those of the loop around it.
    intro ls' hkept' n s s' hrun
    have hfits' : scope.opened.opened.Fits inner.length := (hfits.mono (by omega)).opened.opened
    have hls' : after.length ≤ ls'.length := by rwa [hkept'.length, hkept.length]
    obtain ⟨r, hruns, hends⟩ := d.carriesBlocks n hbody (d.realizesAll hdemands) hb hfits' hrun hls'
      []
    obtain ⟨hkept''⟩ := hends
    exact ⟨_, hkept'.trans hkept'', hruns⟩
  · intro ls' hkept' s
    rw [List.length_append, List.length_singleton]
    exact d.implements.runs_advance hslot hadd ((hkept'.below _ hinner).trans hby) s []

/-- A counting loop runs as often as its bounds say. Behind the code that enters it comes a loop of
the machine around the code of the body. That code is run once for every value in range, from the
start on by the step, and the variable is left one step behind the last of them. If the step is zero
and the start is in range, the code does not end. None of this depends on what the body is, as long
as it comes to its end and leaves the variable alone, nor on the blocks that the loop stands in. -/
theorem for_makes_passes {ρ : Reading d.meaning.embedder Int} (hρ : ρ.Exact d.host.operators)
    (hstmt : .for name start stop step body span ∈ d.program.statements)
    (hcode : d.setting.lowerStmt scope (.for name start stop step body span) before =
      .ok (code, after)) (hfits : scope.Fits before.length) (hls : after.length ≤ ls.length)
    (s : d.meaning.State) {first last by_ : Int}
    (hbounds : d.meaning.Bounds ρ name start stop step s first last by_)
    (hpassable : d.meaning.Passable ρ name (d.meaning.enter name start stop step s).1 body
      (d.meaning.enter name start stop step s).2) (st : List Value) :
    ∃ enter condition bcode next inner ls₁,
      code = enter ++ [Setting.whileLoop condition (bcode ++ next)] ∧
      d.setting.lowerStmts scope.opened.opened body inner = .ok (bcode, after) ∧
      d.machine.Runs enter ⟨s.world, ls, st⟩
        (.done, ⟨(d.meaning.enter name start stop step s).2.world, ls₁, st⟩) ∧
      LoopCode d.machine d.meaning name (d.meaning.enter name start stop step s).1 body
        inner.length ls₁ condition bcode next ∧
      ((by_ = 0 → last < first) → ∃ (starts : List d.meaning.State) (s' : d.meaning.State)
        (ls' : List Value),
        d.machine.Passes condition bcode next (d.meaning.enter name start stop step s).2.world ls₁
          (starts.map Store.world) s'.world ls' ∧
        starts.length = passCount first last by_ ∧
        (∀ (k : Nat) (t : d.meaning.State), starts[k]? = some t →
          ρ.stands t.host (d.meaning.read name t) (first + k * by_)) ∧
        ρ.stands s'.host (d.meaning.read name s') (first + passCount first last by_ * by_) ∧
        d.machine.Runs code ⟨s.world, ls, st⟩ (.done, ⟨s'.world, ls', st⟩) ∧
        Kept before.length ls ls') ∧
      (by_ = 0 → first ≤ last → ∀ r, ¬d.machine.Runs code ⟨s.world, ls, st⟩ r) := by
  obtain ⟨hslot, enter, condition, bcode, next, inner, ls₁, rfl, hb, hle, hkept, henter, hloop⟩ :=
    d.exists_loopCode hstmt hcode hfits hls s st
  have hsound : ρ.sound (d.meaning.enter name start stop step s).2.host :=
    ρ.sound_of_leads (Meaning.consults_goesOn _ _ _).leads (hpassable.sound _ .first)
  have hcounts := hbounds.counts hρ hslot hsound
  refine ⟨enter, condition, bcode, next, inner, ls₁, rfl, hb, henter, hloop, ?_, ?_⟩
  · intro hzero
    obtain ⟨starts, s', ls', hpasses, hlength, hstarts, hend, hkept'⟩ :=
      hloop.passes hρ hslot hpassable hzero hcounts .first (.refl _ _)
    exact ⟨starts, s', ls', hpasses, hlength, hstarts, hend, henter.append hpasses.runs,
      hkept.trans (hkept'.mono hle)⟩
  · rintro rfl hrange r hruns
    exact hloop.not_runs hρ hslot hpassable hrange hcounts st r (hruns.of_append henter)

end Deployment

/-! ## A loop that is run -/

/-- An embedder whose words are natural numbers. It notes whether all sums have been small enough
for a word. -/
def Wasm.Embedder.abacus : Embedder Bool where
  call source args small := match source.field, args with
    | "from_number", [.f64 x] => ([.i32 (UInt32.ofNat (x.ratio.1 / x.ratio.2))], small)
    | "add", [.i32 x, .i32 y] => ([.i32 (x + y)], small && x.toNat + y.toNat < UInt32.size)
    | "less_than", [.i32 x, .i32 y] => ([.i32 (if x < y then 1 else 0)], small)
    | "less_than_or_equal", [.i32 x, .i32 y] => ([.i32 (if x ≤ y then 1 else 0)], small)
    | "greater_than_or_equal", [.i32 x, .i32 y] => ([.i32 (if y ≤ x then 1 else 0)], small)
    | "to_boolean", [.i32 x] => ([.i32 x], small)
    | _, _ => ([.i32 0], small)

namespace Reading

def abacus : Reading .abacus Int where
  stands _ w n := (w.toNat : Int) = n
  sound small := small = true
  sound_of_call source args small h := by
    simp only [Embedder.abacus] at h
    split at h <;> simp_all
  stands_call _ _ _ _ _ _ h := h

theorem compares_abacus {op : Operator} {R : Int → Int → Prop} {T : UInt32 → UInt32 → Prop}
    [∀ x y, Decidable (T x y)]
    (hcall : ∀ x y small, Embedder.abacus.answer (.usual "runtime") op [.i32 x, .i32 y] small =
      (if T x y then 1 else 0, small)) (hT : ∀ x y, T x y ↔ R x.toNat y.toNat) :
    abacus.Compares (.usual "runtime") op R := by
  rintro small x y _ _ rfl rfl
  simp only [hcall]
  intro _
  rw [← hT]
  by_cases h : T x y
  · rw [if_pos h]
    exact iff_of_true (show (1 : UInt32) ≠ 0 by decide) h
  · rw [if_neg h]
    exact iff_of_false (fun hne ↦ hne rfl) h

theorem exact_abacus : abacus.Exact (.usual "runtime") where
  zero small _ := by
    have hzero : (UInt32.ofNat (Binary64.zero.ratio.1 / Binary64.zero.ratio.2)).toNat = 0 := by
      decide +kernel
    exact congrArg Int.ofNat hzero
  one small _ := by
    have hone : (UInt32.ofNat (Setting.one.ratio.1 / Setting.one.ratio.2)).toNat = 1 := by
      decide +kernel
    exact congrArg Int.ofNat hone
  add small x y _ _ hx hy hs := by
    obtain rfl := hx
    obtain rfl := hy
    have hsum : x.toNat + y.toNat < UInt32.size :=
      of_decide_eq_true ((Bool.and_eq_true_iff.mp hs).2)
    have hadd : (x + y).toNat = x.toNat + y.toNat := by
      rw [UInt32.toNat_add, Nat.mod_eq_of_lt hsum]
    exact (congrArg Int.ofNat hadd).trans (Int.natCast_add _ _)
  lessThan := compares_abacus (T := fun x y ↦ x < y) (fun _ _ _ ↦ rfl) fun x y ↦ by
    rw [UInt32.lt_iff_toNat_lt, Int.ofNat_lt]
  lessThanOrEqual := compares_abacus (T := fun x y ↦ x ≤ y) (fun _ _ _ ↦ rfl) fun x y ↦ by
    rw [UInt32.le_iff_toNat_le, Int.ofNat_le]
  greaterThanOrEqual := compares_abacus (T := fun x y ↦ y ≤ x) (fun _ _ _ ↦ rfl) fun x y ↦ by
    rw [UInt32.le_iff_toNat_le, ge_iff_le, Int.ofNat_le]

end Reading

/-- A loop that assigns the variable its end was read from. -/
def Stmt.counting : Stmt :=
  .for "i" (.variable "i") (.variable "n") none [.assign (.variable "n") (.variable "i") default]
    default

/-- A loop by a step that is read from a variable. -/
def Stmt.standing : Stmt :=
  .for "i" (.variable "i") (.variable "n") (some (.variable "z")) [] default

def Program.counting : Program := ⟨⟨["i", "n", "z"]⟩, [.counting, .standing]⟩

namespace Deployment

def counting : Deployment Bool where
  host := .console
  program := .counting
  source := ""
  runtime := .support
  tables := Program.counting.tablesOn .console
  codes := Program.counting.codesOn .console
  embedder := .abacus
  operators := Bindings.resolve_support
  prepared := rfl
  lowered := rfl
  valid := by decide +kernel
  imported := by decide +kernel
  honored := by
    refine Embedder.honors_of_words (fun source args small ↦ ?_) (by decide +kernel)
    simp only [Embedder.abacus]
    split <;> rfl

/-- Loops are entered with their variable at zero, their end at one, and the given step at zero. -/
def countingState : counting.meaning.State := ⟨[0, 1, 0], rfl, true, []⟩

def countingEntered (step : Option Expr) : Meaning.Counting × counting.meaning.State :=
  counting.meaning.enter "i" (.variable "i") (.variable "n") step countingState

theorem countingEntered_step : (countingEntered none).1.step = 1 := by
  have hone : UInt32.ofNat (Setting.one.ratio.1 / Setting.one.ratio.2) = 1 := by decide +kernel
  exact hone

theorem counting_test (k : Meaning.Counting) (s : counting.meaning.State) :
    (counting.meaning.goesOn "i" k s).2.host = s.host := by
  obtain ⟨stop, step, down⟩ := k
  cases down <;> rfl

theorem counting_advance {k : Meaning.Counting} {s : counting.meaning.State} (hs : s.host = true)
    (hlt : (counting.meaning.read "i" s).toNat + k.step.toNat < UInt32.size) :
    (counting.meaning.advance "i" k s).host = true :=
  Bool.and_eq_true_iff.mpr ⟨hs, decide_eq_true hlt⟩

/-- A pass assigns the end its variable, which leaves the variable and the embedder alone. -/
theorem counting_pass {n : Nat} {s s' : counting.meaning.State}
    (h : counting.meaning.runStmts n [.assign (.variable "n") (.variable "i") default] s =
      some (.next, s')) :
    s'.host = s.host ∧ counting.meaning.read "i" s' = counting.meaning.read "i" s := by
  obtain _ | _ | n := n
  · cases h
  · cases h
  · cases h
    exact ⟨rfl, Meaning.read_write_of_ne (m := counting.meaning) (by decide) _ _⟩

theorem counting_goesOn {s : counting.meaning.State}
    (h : (counting.meaning.goesOn "i" (countingEntered none).1 s).1 = true) :
    (counting.meaning.read "i" s).toNat ≤ 1 := by
  by_contra hgt
  have hword : (if counting.meaning.read "i" s ≤ 1 then (1 : UInt32) else 0) ≠ 0 :=
    of_decide_eq_true h
  exact hword (if_neg fun hle ↦ hgt (UInt32.le_iff_toNat_le.mp hle))

theorem passable_counting :
    counting.meaning.Passable Reading.abacus "i" (countingEntered none).1
      [.assign (.variable "n") (.variable "i") default] (countingEntered none).2 where
  sound s h := by
    refine (counting_test _ s).trans ?_
    induction h with
    | first => rfl
    | @again n s s' _ hgoes hbody ih =>
      obtain ⟨hhost, hread⟩ := counting_pass hbody
      refine counting_advance (hhost.trans ((counting_test _ s).trans ih)) ?_
      have hi : (counting.meaning.read "i" s').toNat ≤ 1 := by
        rw [hread]
        exact counting_goesOn hgoes
      rw [countingEntered_step, UInt32.toNat_one]
      exact Nat.lt_of_le_of_lt (Nat.add_le_add_right hi 1) (by decide)
  ends _ _ _ := ⟨2, _, rfl, (counting_pass (n := 2) rfl).2⟩

/-- Adding zero never gives too large a sum. -/
theorem reaches_standing {k : Meaning.Counting} {s₀ s : counting.meaning.State} (hk : k.step = 0)
    (hs₀ : s₀.host = true) (h : counting.meaning.Reaches "i" k [] s₀ s) : s.host = true := by
  induction h with
  | first => exact hs₀
  | @again n s s' _ _ hbody ih =>
    obtain _ | n := n
    · cases hbody
    · cases hbody
      refine counting_advance ((counting_test k s).trans ih) ?_
      rw [hk, UInt32.toNat_zero, Nat.add_zero]
      exact UInt32.toNat_lt _

theorem passable_standing :
    counting.meaning.Passable Reading.abacus "i" (countingEntered (some (.variable "z"))).1 []
      (countingEntered (some (.variable "z"))).2 where
  sound s h := (counting_test _ s).trans (reaches_standing rfl rfl h)
  ends _ _ _ := ⟨1, _, rfl, rfl⟩

/-- There are two passes, although the first one sets the variable that the end was read from to
zero. With a step that is zero there is no end of them. -/
theorem counting_makes_passes :
    (∃ (code enter condition bcode next : List Instr) (after : Locals)
      (starts : List counting.meaning.State) (s' : counting.meaning.State)
      (ls ls₁ ls' : List Value),
      counting.setting.lowerStmt (.top .entry) .counting [] = .ok (code, after) ∧
      code = enter ++ [Setting.whileLoop condition (bcode ++ next)] ∧
      counting.machine.Passes condition bcode next (countingEntered none).2.world ls₁
        (starts.map Store.world) s'.world ls' ∧
      starts.length = 2 ∧
      (∀ (k : Nat) (t : counting.meaning.State), starts[k]? = some t →
        ((counting.meaning.read "i" t).toNat : Int) = 0 + k * 1) ∧
      (counting.meaning.read "i" s').toNat = 2 ∧
      counting.machine.Runs code ⟨countingState.world, ls, []⟩ (.done, ⟨s'.world, ls', []⟩)) ∧
    ∃ (code : List Instr) (after : Locals) (ls : List Value),
      counting.setting.lowerStmt (.top .entry) .standing [] = .ok (code, after) ∧
      after.length ≤ ls.length ∧
      ∀ r, ¬counting.machine.Runs code ⟨countingState.world, ls, []⟩ r := by
  have hfits : (Scope.top .entry).Fits 0 := fun _ h ↦ nomatch h
  have hls (after : Locals) :
      after.length ≤ (List.replicate after.length (Value.i32 0)).length := by
    rw [List.length_replicate]
  constructor
  · have hok : (counting.setting.lowerStmt (.top .entry) .counting []).isOk := by decide +kernel
    obtain ⟨⟨code, after⟩, hcode⟩ := exists_of_isOk hok
    have hbounds : counting.meaning.Bounds Reading.abacus "i" (.variable "i") (.variable "n") none
        countingState 0 1 1 := ⟨rfl, rfl, rfl⟩
    obtain ⟨enter, condition, bcode, next, inner, ls₁, hparts, -, -, -, hpasses, -⟩ :=
      counting.for_makes_passes Reading.exact_abacus (List.mem_cons_self ..) hcode hfits (hls after)
        countingState hbounds passable_counting []
    obtain ⟨starts, s', ls', hpasses, hlength, hstarts, hend, hruns, -⟩ := hpasses (by decide)
    exact ⟨code, enter, condition, bcode, next, after, starts, s', _, ls₁, ls', hcode, hparts,
      hpasses, hlength, hstarts, Int.ofNat.inj hend, hruns⟩
  · have hok : (counting.setting.lowerStmt (.top .entry) .standing []).isOk := by decide +kernel
    obtain ⟨⟨code, after⟩, hcode⟩ := exists_of_isOk hok
    have hbounds : counting.meaning.Bounds Reading.abacus "i" (.variable "i") (.variable "n")
        (some (.variable "z")) countingState 0 1 0 := ⟨rfl, rfl, rfl⟩
    have hmem : Stmt.standing ∈ Program.counting.statements :=
      List.mem_append_right _ (List.mem_cons_self ..)
    obtain ⟨-, -, -, -, -, -, -, -, -, -, -, hnever⟩ :=
      counting.for_makes_passes Reading.exact_abacus hmem hcode hfits (hls after) countingState
        hbounds passable_standing []
    exact ⟨code, after, _, hcode, hls after, hnever rfl (by decide)⟩

end Deployment

end ScriptWasm
