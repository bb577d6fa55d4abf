import ScriptWasm.Proofs.Execution.Effects

/-!
# The code of statements

A statement that ends in front of the next one has code that ends behind its last instruction. A
statement that ends with a jump has code that ends with a branch: the branch leaves every block
around it and goes back to the loop of the routine, which finds the segment to go on with in a
local. So how code ends depends on what it stands in, and leaving a block turns one into the other.

What is shown here is about single statements and about blocks. Calls of subroutines are assumed to
do what they should, for runs that take less fuel.
-/

namespace ScriptWasm

open Wasm

variable {σ : Type}

/-! ## How code ends -/

/-- A scope in which jumps are possible, if there is a loop to go back to: the scope is inside the
loop, and the local that the loop looks at is among the first ones. -/
def Scope.Fits (s : Scope) (k : Nat) : Prop :=
  ∀ d, s.dispatch = some d → d.level ≤ s.depth ∧ d.selector < k

theorem Scope.Fits.opened {s : Scope} {k : Nat} (h : s.Fits k) : s.opened.Fits k :=
  fun d hd ↦ ⟨Nat.le_succ_of_le (h d hd).1, (h d hd).2⟩

theorem Scope.Fits.mono {s : Scope} {j k : Nat} (h : s.Fits j) (hjk : j ≤ k) : s.Fits k :=
  fun d hd ↦ ⟨(h d hd).1, Nat.lt_of_lt_of_le (h d hd).2 hjk⟩

/-- How code ends that runs statements. Behind the last instruction the first locals and the stack
are as they were. With a jump, the local that the loop looks at holds the segment of the label. -/
inductive Ends (w : Setting) (s : Scope) (k : Nat) (ls st : List Value) (world : World σ) :
    Flow → Exit × Config σ → Prop
  | next {ls' : List Value} (h : Kept k ls ls') :
      Ends w s k ls st world .next (.done, ⟨world, ls', st⟩)
  | jump {name : String} {d : Dispatch} {segment : Nat} {ls' st' : List Value}
    (hd : s.dispatch = some d) (hlabel : w.tables.label s.routine name = .ok segment)
    (hlength : ls'.length = ls.length)
    (hselector : ls'[d.selector]? = some (.i32 (UInt32.ofNat segment))) :
    Ends w s k ls st world (.jump name) (.branch (s.depth - d.level), ⟨world, ls', st'⟩)

namespace Ends

variable {w : Setting} {s : Scope} {j k : Nat} {ls ls' st : List Value} {world : World σ}
  {flow : Flow} {r : Exit × Config σ}

theorem mono (h : Ends w s k ls st world flow r) (hjk : j ≤ k) : Ends w s j ls st world flow r := by
  cases h with
  | next hkept => exact .next (hkept.mono hjk)
  | jump hd hlabel hlength hselector => exact .jump hd hlabel hlength hselector

theorem of_kept (h : Ends w s k ls' st world flow r) (hkept : Kept k ls ls') :
    Ends w s k ls st world flow r := by
  cases h with
  | next hkept' => exact .next (hkept.trans hkept')
  | jump hd hlabel hlength hselector =>
    exact .jump hd hlabel (hlength.trans hkept.length) hselector

/-- Behind a block, a branch has one block less to leave. -/
theorem leave (h : Ends w s.opened k ls [] world flow r) (hs : s.Fits k) :
    Ends w s k ls st world flow (leave 0 st r) := by
  cases h with
  | next hkept => exact .next hkept
  | @jump name d segment ls' st' hd hlabel hlength hselector =>
    have hdepth : s.opened.depth - d.level = s.depth - d.level + 1 :=
      Nat.succ_sub (hs d hd).1
    rw [hdepth]
    exact .jump hd hlabel hlength hselector

end Ends

/-! ## Conditionals and loops -/

/-- The passes of a loop: the branch that ends them leaves the block around them. -/
def Setting.passes (condition body : List Instr) : Instr :=
  .loop .empty (condition ++ [.i32Eqz, .brIf 1] ++ body ++ [.br 0])

namespace Wasm.Instance

open Setting (passes)

variable {I : Instance σ} {w w' : World σ} {ls ls' st st' : List Value} {x : UInt32}
  {r : Exit × Config σ}

/-- A conditional runs one of its branches as a block. -/
theorem Steps.conditional {yes : List Instr} {no : Option (List Instr)}
    (h : I.Runs (if x = 0 then no.getD [] else yes) ⟨w, ls, []⟩ r) :
    I.Steps (Setting.conditional yes no) ⟨w, ls, .i32 x :: st⟩ (leave 0 st r) := by
  cases no with
  | some no => exact .ifElse (.block rfl h)
  | none =>
    by_cases hx : x = 0
    · rw [if_pos hx, Option.getD_none] at h
      rw [h.unique .nil, hx]
      exact .ifThen_zero
    · rw [if_neg hx] at h
      exact .ifThen hx (.block rfl h)

theorem Steps.whileLoop {condition body : List Instr}
    (h : I.Steps (passes condition body) ⟨w, ls, []⟩ r) :
    I.Steps (Setting.whileLoop condition body) ⟨w, ls, st⟩ (leave 0 st r) :=
  .block rfl (.one h)

variable {condition body : List Instr}

theorem Steps.passes_exit (h : I.Runs condition ⟨w, ls, []⟩ (.done, ⟨w', ls', [.i32 0]⟩)) :
    I.Steps (passes condition body) ⟨w, ls, []⟩ (.branch 0, ⟨w', ls', []⟩) := by
  have hbranch : I.Runs (condition ++ [.i32Eqz, .brIf 1]) ⟨w, ls, []⟩
      (.branch 1, ⟨w', ls', []⟩) := h.append (.cons (.i32Eqz 0) (.one (.brIf 1 1)))
  exact .loop_branch hbranch.append_branch.append_branch

theorem Runs.pass (h : I.Runs condition ⟨w, ls, []⟩ (.done, ⟨w', ls', [.i32 x]⟩)) (hx : x ≠ 0)
    (h' : I.Runs body ⟨w', ls', []⟩ r) :
    I.Runs (condition ++ [.i32Eqz, .brIf 1] ++ body) ⟨w, ls, []⟩ r := by
  have hgo : I.Steps .i32Eqz ⟨w', ls', [.i32 x]⟩
      (.done, ⟨w', ls', [.i32 (if x = 0 then 1 else 0)]⟩) := .i32Eqz x
  rw [if_neg hx] at hgo
  exact (h.append (.cons hgo (.one (.brIf 0 1)))).append h'

theorem Steps.passes_again (h : I.Runs condition ⟨w, ls, []⟩ (.done, ⟨w', ls', [.i32 x]⟩))
    (hx : x ≠ 0) {w₁ : World σ} {ls₁ : List Value}
    (hbody : I.Runs body ⟨w', ls', []⟩ (.done, ⟨w₁, ls₁, st'⟩))
    (hagain : I.Steps (passes condition body) ⟨w₁, ls₁, []⟩ r) :
    I.Steps (passes condition body) ⟨w, ls, []⟩ r :=
  .loop_again ((h.pass hx hbody).append (.one (.br 0 _))) hagain

theorem Steps.passes_leave (h : I.Runs condition ⟨w, ls, []⟩ (.done, ⟨w', ls', [.i32 x]⟩))
    (hx : x ≠ 0) {k : Nat} {c : Config σ} (hbody : I.Runs body ⟨w', ls', []⟩ (.branch (k + 1), c)) :
    I.Steps (passes condition body) ⟨w, ls, []⟩ (.branch k, c) :=
  .loop_branch (h.pass hx hbody).append_branch

end Wasm.Instance

/-! ## Carrying statements out -/

/-- Code does what statements do, whenever they end: `run` runs the statements directly. -/
def Carries (I : Instance σ) (w : Setting) (m : Meaning σ) (scope : Scope) (before after : Locals)
    (run : m.State → Option (Flow × m.State)) (code : List Instr) : Prop :=
  ∀ ⦃s s' : m.State⦄ ⦃flow : Flow⦄, run s = some (flow, s') → ∀ ⦃ls : List Value⦄,
    after.length ≤ ls.length → ∀ st, ∃ r, I.Runs code ⟨s.world, ls, st⟩ r ∧
      Ends w scope before.length ls st s'.world flow r

/-- Code of blocks does what they do, with an amount of fuel. -/
def CarriesBlocks (I : Instance σ) (w : Setting) (m : Meaning σ) (n : Nat) : Prop :=
  ∀ ⦃kind : ScopeKind⦄ ⦃body : List Stmt⦄, m.host.registry.AdmitsStmts kind body →
    RealizesAll I w m (m.host.registry.stmtsDemands body) → ∀ ⦃scope : Scope⦄
    ⦃before after : Locals⦄ ⦃code : List Instr⦄,
    w.lowerStmts scope body before = .ok (code, after) → scope.Fits before.length →
    Carries I w m scope before after (m.runStmts n body) code

/-- Calls of subroutines do what they do, with an amount of fuel. -/
def CarriesCalls (I : Instance σ) (w : Setting) (m : Meaning σ) (n : Nat) : Prop :=
  ∀ ⦃name : String⦄ ⦃body : List Stmt⦄ ⦃index : Nat⦄, m.body? name = some body →
    w.tables.subroutine name = .ok index → ∀ ⦃s s' : m.State⦄,
    m.runRoutine n body body s = some s' → ∀ ls st,
    I.Steps (.call (w.tables.function (.subroutine index))) ⟨s.world, ls, st⟩
      (.done, ⟨s'.world, ls, st⟩)

variable {I : Instance σ} {w : Setting} {m : Meaning σ} {scope : Scope} {before after : Locals}
  {code : List Instr} {n : Nat}

/-- Statements that never jump. -/
theorem Carries.of_runs {run : m.State → Option (Flow × m.State)} {f : m.State → m.State}
    (hrun : ∀ s, run s = some (.next, f s))
    (h : ∀ (s : m.State) ⦃ls : List Value⦄, after.length ≤ ls.length → ∀ st,
      ∃ ls', Kept before.length ls ls' ∧
        I.Runs code ⟨s.world, ls, st⟩ (.done, ⟨(f s).world, ls', st⟩)) :
    Carries I w m scope before after run code := by
  intro s s' flow hs ls hls st
  rw [hrun] at hs
  cases hs
  obtain ⟨ls', hkept, hruns⟩ := h s hls st
  exact ⟨_, hruns, .next hkept⟩

namespace Implements

/-! ### Statements without blocks -/

/-- A method that is called for its effect leaves nothing on the stack. -/
theorem runs_perform (hI : Implements I w m) {type method : String} {args : List Expr}
    (ha : m.host.registry.AdmitsCall type method args.length false)
    (hargs : m.host.registry.AdmitsExprs args)
    (hr : RealizesAll I w m (m.host.registry.callDemands type method ++
      m.host.registry.exprsDemands args)) {d : MethodDescriptor}
    (hd : w.host.method type method = .ok d) {acode : List Instr}
    (hacode : w.lowerArgs args = .ok acode) {call : Instr}
    (hcall : w.callImport d.source = .ok call) {ls : List Value} (s : m.State) (st : List Value) :
    I.Runs (acode ++ call :: if d.returnsValue then [.drop] else []) ⟨s.world, ls, st⟩
      (.done, ⟨(m.perform type method args s).world, ls, st⟩) := by
  obtain ⟨hrcall, hrargs⟩ := realizesAll_append.mp hr
  have hmethod : m.host.registry.method? type method = some d := by
    rw [← hI.host]
    exact Host.method_eq_ok_iff.mp hd
  obtain ⟨d', hd', hcount, -⟩ := ha
  obtain rfl : d' = d := Option.some.inj (hd'.symm.trans hmethod)
  have hsource : Realizes I w m (.function d'.source d'.signature) := hrcall _ (by
    simp [Registry.callDemands, hmethod])
  have htypes : ((m.evalAll args s).1.map Value.i32).map Value.type = d'.signature.params := by
    rw [types_words, length_evalAll, MethodDescriptor.signature, hcount]
  have hperform : m.perform type method args s =
      (m.invoke d'.source ((m.evalAll args s).1.map .i32) (m.evalAll args s).2).2 := by
    simp only [Meaning.perform, hmethod]
  have hinvoke : I.Steps call ⟨(m.evalAll args s).2.world, ls, _ ++ st⟩ _ :=
    hI.steps_invoke hsource hcall _ htypes (m.evalAll args s).2
  have hresults := types_invoke hsource _ htypes (m.evalAll args s).2
  rw [hperform]
  refine (hI.runs_lowerArgs hargs hrargs hacode s st).append (.cons hinvoke ?_)
  rw [MethodDescriptor.signature] at hresults
  by_cases hvalue : d'.returnsValue
  · rw [if_pos hvalue] at hresults ⊢
    obtain ⟨x, hx⟩ := eq_word_of_types hresults
    rw [hx]
    exact .one .drop
  · rw [if_neg hvalue] at hresults ⊢
    rw [List.map_eq_nil_iff.mp hresults]
    exact .nil

/-- A jump notes its segment and branches to the loop. -/
theorem carries_goto {name : String} {span : Span}
    (hcode : w.lowerStmt scope (.goto name span) before = .ok (code, after))
    (hfits : scope.Fits before.length) :
    Carries I w m scope before after (m.runStmt n (.goto name span)) code := by
  simp only [Setting.lowerStmt, Lowering.bind_eq_ok_iff, Lowering.lift_eq_ok_iff,
    Lowering.pure_eq_ok_iff] at hcode
  obtain ⟨segment, before, ⟨hlabel, rfl⟩, ⟨selector, depth⟩, _, ⟨hjump, rfl⟩, heq⟩ := hcode
  cases heq
  intro s s' flow hs ls hls st
  cases n with
  | zero => cases hs
  | succ n =>
    cases hs
    rw [Scope.jump] at hjump
    split at hjump
    · rename_i d hd
      cases hjump
      have hlt : d.selector < ls.length := Nat.lt_of_lt_of_le (hfits d hd).2 hls
      exact ⟨_, .cons (.i32Const _) (.cons (.localSet hlt) (.one (.br _ _))),
        .jump hd hlabel List.length_set (List.getElem?_set_self hlt)⟩
    · cases hjump

/-! ### Loops -/

/-- The passes of a loop, from locals that agree with `ls` as far as the loop relies on them. -/
theorem runs_passes {again : m.State → Bool × m.State} {next : m.State → m.State}
    {body : List Stmt} {condition bcode ncode : List Instr} {ls : List Value}
    (hagain : ∀ ls', Kept before.length ls ls' → Decides I m again ls' condition)
    (hnext : ∀ ls', Kept before.length ls ls' → ∀ (s : m.State) st,
      I.Runs ncode ⟨s.world, ls', st⟩ (.done, ⟨(next s).world, ls', st⟩))
    (hfits : scope.Fits before.length) (hls : after.length ≤ ls.length)
    (hbody : ∀ k < n, Carries I w m scope.opened.opened before after (m.runStmts k body) bcode)
    {s s' : m.State} {flow : Flow} (hrun : m.runLoop n again body next s = some (flow, s'))
    {ls' : List Value} (hkept : Kept before.length ls ls') (st : List Value) :
    ∃ r, I.Steps (Setting.passes condition (bcode ++ ncode)) ⟨s.world, ls', []⟩ r ∧
      Ends w scope before.length ls st s'.world flow (leave 0 st r) := by
  induction n generalizing s ls' with
  | zero => cases hrun
  | succ n ih =>
    obtain ⟨x, hcondition, hx⟩ := hagain ls' hkept s []
    rw [Meaning.runLoop] at hrun
    split at hrun
    · rename_i s₁ hs
      rw [hs] at hcondition hx
      obtain ⟨⟨flow₁, s₂⟩, hpass, hrest⟩ := Option.bind_eq_some_iff.mp hrun
      obtain ⟨r, hruns, hends⟩ := hbody n (Nat.lt_succ_self n) hpass (hkept.length ▸ hls) []
      cases hends with
      | next hkept' =>
        have hkept'' := hkept.trans hkept'
        obtain ⟨r, hr, hends⟩ := ih (fun k hk ↦ hbody k (Nat.lt_succ_of_lt hk)) hrest hkept''
        exact ⟨r, .passes_again hcondition (hx.mp rfl) (hruns.append (hnext _ hkept'' s₂ _)) hr,
          hends⟩
      | @jump name d segment ls₁ st₁ hd hlabel hlength hselector =>
        cases hrest
        have hdepth : scope.opened.opened.depth - d.level = scope.depth - d.level + 1 + 1 := by
          have := (hfits d hd).1
          simp only [Scope.opened]
          omega
        rw [hdepth] at hruns
        exact ⟨_, .passes_leave hcondition (hx.mp rfl) hruns.append_branch,
          .jump hd hlabel (hlength.trans hkept.length) hselector⟩
    · rename_i s₁ hs
      rw [hs] at hcondition hx
      cases hrun
      obtain rfl : x = 0 := by simpa using hx
      exact ⟨_, .passes_exit hcondition, .next hkept⟩

theorem carries_while (hI : Implements I w m) (hblocks : ∀ k < n, CarriesBlocks I w m k)
    {condition : Expr} {body : List Stmt} {span : Span} {kind : ScopeKind}
    (ha : m.host.registry.AdmitsStmt kind (.while condition body span))
    (hr : RealizesAll I w m (m.host.registry.stmtDemands (.while condition body span)))
    (hcode : w.lowerStmt scope (.while condition body span) before = .ok (code, after))
    (hfits : scope.Fits before.length) :
    Carries I w m scope before after (m.runStmt n (.while condition body span)) code := by
  obtain ⟨hrc, hrb⟩ := realizesAll_append.mp hr
  simp only [Setting.lowerStmt, Lowering.bind_eq_ok_iff, Lowering.lift_eq_ok_iff,
    Lowering.pure_eq_ok_iff] at hcode
  obtain ⟨ccode, before, ⟨hc, rfl⟩, bcode, after', hb, heq⟩ := hcode
  cases heq
  intro s s' flow hs ls hls st
  cases n with
  | zero => cases hs
  | succ n =>
    have hnext (ls' : List Value) (_ : Kept before.length ls ls') (s : m.State) (st : List Value) :
        I.Runs [] ⟨s.world, ls', st⟩ (.done, ⟨(id s).world, ls', st⟩) := .nil
    obtain ⟨r, hsteps, hends⟩ := runs_passes
      (fun _ _ ↦ hI.decides_lowerCondition ha.1 hrc hc) hnext hfits hls
      (fun k hk ↦ hblocks k (Nat.lt_succ_of_lt hk) ha.2 hrb hb hfits.opened.opened) hs (.refl _ _)
      st
    rw [List.append_nil] at hsteps
    exact ⟨_, .one (.whileLoop hsteps), hends⟩

theorem carries_for (hI : Implements I w m) (hblocks : ∀ k < n, CarriesBlocks I w m k)
    {name : String} {start last : Expr} {step : Option Expr} {body : List Stmt} {span : Span}
    {kind : ScopeKind}
    (ha : m.host.registry.AdmitsStmt kind (.for name start last step body span))
    (hr : RealizesAll I w m (m.host.registry.stmtDemands (.for name start last step body span)))
    (hcode : w.lowerStmt scope (.for name start last step body span) before = .ok (code, after))
    (hfits : scope.Fits before.length) :
    Carries I w m scope before after (m.runStmt n (.for name start last step body span)) code := by
  simp only [Registry.stmtDemands, realizesAll_append] at hr
  obtain ⟨⟨⟨hrs, hrl⟩, hrst⟩, hrb⟩ := hr
  simp only [Setting.lowerStmt, Lowering.bind_eq_ok_iff, Lowering.lift_eq_ok_iff,
    Lowering.addLocal_eq_ok_iff, Lowering.pure_eq_ok_iff] at hcode
  obtain ⟨slot, before, ⟨hslot, rfl⟩, stop, _, ⟨rfl, rfl⟩, by_, _, ⟨rfl, rfl⟩,
    ⟨enter, condition⟩, inner, hbounds, bcode, _, hb, add, _, ⟨hadd, rfl⟩, heq⟩ := hcode
  cases heq
  have hinner := (w.grows_lowerBounds _ _ _ _ _ _).length_le hbounds
  have hafter := (w.grows_lowerStmts _ _).length_le hb
  simp only [List.length_append, List.length_singleton] at hbounds hinner ⊢
  have hfits' : scope.Fits inner.length := hfits.mono (by omega)
  intro s s' flow hs ls hls st
  cases n with
  | zero => cases hs
  | succ n =>
    obtain ⟨ls₁, hkept, henter, hby, hdecides⟩ := hI.runs_lowerBounds hslot ha.1 ha.2.1 ha.2.2.1 hrs
      hrl hrst hbounds (Nat.lt_succ_self _) (by simp) (Nat.le_trans hafter hls) s st
    -- The end and the step stay in their locals over all passes.
    have hby' (ls' : List Value) (hkept' : Kept inner.length ls₁ ls') :=
      (hkept'.below (before.length + 1) hinner).trans hby
    obtain ⟨r, hsteps, hends⟩ := runs_passes hdecides
      (fun ls' hkept' ↦ hI.runs_advance hslot hadd (hby' ls' hkept')) hfits' (hkept.length ▸ hls)
      (fun k hk ↦ hblocks k (Nat.lt_succ_of_lt hk) ha.2.2.2 hrb hb hfits'.opened.opened) hs
      (.refl _ _) st
    exact ⟨_, henter.append (.one (.whileLoop hsteps)), (hends.mono (by omega)).of_kept hkept⟩

/-! ### Conditionals -/

/-- The arms of a conditional, each of which is in a block that the next one is in the other branch
of. -/
theorem carries_arms (hI : Implements I w m) (hblocks : ∀ k < n, CarriesBlocks I w m k)
    {arms : List Arm} {otherwise : List Stmt} (ha : m.host.registry.AdmitsArms arms)
    (ho : m.host.registry.AdmitsStmts .block otherwise)
    (hr : RealizesAll I w m (m.host.registry.armsDemands arms))
    (hro : RealizesAll I w m (m.host.registry.stmtsDemands otherwise)) {no : Option (List Instr)}
    (hcode : w.lowerArms scope arms (w.lowerOtherwise otherwise) before = .ok (no, after))
    (hfits : scope.Fits before.length) :
    Carries I w m scope before after (m.runArms n arms otherwise) (no.getD []) := by
  induction n generalizing arms scope before no with
  | zero =>
    intro s s' flow hs
    cases hs
  | succ n ih =>
    match arms with
    | [] =>
      rw [Setting.lowerArms, Setting.lowerOtherwise] at hcode
      split at hcode
      · rename_i hempty
        cases hcode
        obtain rfl := List.isEmpty_iff.mp hempty
        intro s s' flow hs ls hls st
        cases n with
        | zero => cases hs
        | succ n =>
          cases hs
          exact ⟨_, .nil, .next (.refl _ _)⟩
      · obtain ⟨ocode, _, hocode, heq⟩ := Lowering.map_eq_ok_iff.mp hcode
        cases heq
        exact hblocks n (Nat.lt_succ_self n) ho hro hocode hfits
    | .mk condition body :: rest =>
      simp only [Registry.armsDemands, realizesAll_append] at hr
      simp only [Setting.lowerArms, Lowering.bind_eq_ok_iff, Lowering.lift_eq_ok_iff,
        Lowering.pure_eq_ok_iff] at hcode
      obtain ⟨ccode, before, ⟨hc, rfl⟩, yes, mid, hyes, no, _, hno, heq⟩ := hcode
      cases heq
      have hmid := (w.grows_lowerStmts _ _).length_le hyes
      have hafter := (w.grows_lowerArms _ _ (w.grows_lowerOtherwise otherwise)).length_le hno
      intro s s' flow hs ls hls st
      have hdecides : Decides I m (m.test condition) ls ccode :=
        hI.decides_lowerCondition ha.1 hr.1.1 hc
      obtain ⟨x, hcondition, hx⟩ := hdecides s st
      rw [Meaning.runArms] at hs
      split at hs
      · rename_i s₁ htest
        rw [htest] at hcondition hx
        obtain ⟨r, hruns, hends⟩ := hblocks n (Nat.lt_succ_self n) ha.2.1 hr.1.2 hyes hfits.opened
          hs (Nat.le_trans hafter hls) []
        exact ⟨_, hcondition.append (.one (.conditional (by rwa [if_neg (hx.mp rfl)]))),
          hends.leave hfits⟩
      · rename_i s₁ htest
        rw [htest] at hcondition hx
        obtain rfl : x = 0 := by simpa using hx
        obtain ⟨r, hruns, hends⟩ := ih (fun k hk ↦ hblocks k (Nat.lt_succ_of_lt hk)) ha.2.2 hr.2 hno
          (hfits.opened.mono hmid) hs hls []
        exact ⟨_, hcondition.append (.one (.conditional hruns)), (hends.mono hmid).leave hfits⟩

/-! ### All statements -/

/-- The code of a statement does what the statement does, if what runs with less fuel does. -/
theorem carries_stmt (hI : Implements I w m) (hblocks : ∀ k < n, CarriesBlocks I w m k)
    (hcalls : ∀ k < n, CarriesCalls I w m k) {kind : ScopeKind} {stmt : Stmt}
    (ha : m.host.registry.AdmitsStmt kind stmt)
    (hr : RealizesAll I w m (m.host.registry.stmtDemands stmt))
    (hcode : w.lowerStmt scope stmt before = .ok (code, after))
    (hfits : scope.Fits before.length) :
    Carries I w m scope before after (m.runStmt n stmt) code := by
  cases n with
  | zero =>
    intro s s' flow hs
    cases hs
  | succ n =>
    have hnothing (hnil : code = []) (hrun : ∀ s, m.runStmt (n + 1) stmt s = some (.next, s)) :
        Carries I w m scope before after (m.runStmt (n + 1) stmt) code :=
      .of_runs hrun fun s ls _ st ↦ ⟨ls, .refl _ _, by rw [hnil]; exact .nil⟩
    match stmt with
    | .assign target value _ =>
      exact .of_runs (fun _ ↦ rfl) fun s ls hls st ↦ hI.runs_lowerAssign ha hr hcode hls s st
    | .call type method args _ =>
      simp only [Setting.lowerStmt, Lowering.bind_eq_ok_iff, Lowering.lift_eq_ok_iff,
        Lowering.pure_eq_ok_iff] at hcode
      obtain ⟨d, _, ⟨hd, rfl⟩, acode, _, ⟨hacode, rfl⟩, call, _, ⟨hcall, rfl⟩, heq⟩ := hcode
      cases heq
      exact .of_runs (fun _ ↦ rfl) fun s ls _ st ↦
        ⟨ls, .refl _ _, hI.runs_perform ha.1 ha.2 hr hd hacode hcall s st⟩
    | .cond condition body arms otherwise _ =>
      simp only [Registry.stmtDemands, realizesAll_append] at hr
      simp only [Setting.lowerStmt, Lowering.bind_eq_ok_iff, Lowering.lift_eq_ok_iff,
        Lowering.pure_eq_ok_iff] at hcode
      obtain ⟨ccode, before, ⟨hc, rfl⟩, yes, mid, hyes, no, _, hno, heq⟩ := hcode
      cases heq
      -- A conditional is a list of arms with at least one.
      have harms : w.lowerArms scope (.mk condition body :: arms) (w.lowerOtherwise otherwise)
          before = .ok (some (ccode ++ [Setting.conditional yes no]), after) := by
        simp only [Setting.lowerArms, Lowering.bind_eq_ok_iff, Lowering.lift_eq_ok_iff,
          Lowering.pure_eq_ok_iff]
        exact ⟨ccode, before, ⟨hc, rfl⟩, yes, mid, hyes, no, after, hno, rfl⟩
      have haarms : m.host.registry.AdmitsArms (.mk condition body :: arms) :=
        ⟨ha.1, ha.2.1, ha.2.2.1⟩
      have hrarms :
          RealizesAll I w m (m.host.registry.armsDemands (.mk condition body :: arms)) := by
        simpa only [Registry.armsDemands, realizesAll_append] using hr.1
      exact hI.carries_arms (fun k hk ↦ hblocks k (Nat.lt_succ_of_lt hk)) haarms ha.2.2.2 hrarms
        hr.2 harms hfits
    | .while condition body span => exact hI.carries_while hblocks ha hr hcode hfits
    | .for name start last step body span => exact hI.carries_for hblocks ha hr hcode hfits
    | .goto name span => exact carries_goto hcode hfits
    | .callSub name span =>
      simp only [Setting.lowerStmt, Lowering.bind_eq_ok_iff, Lowering.lift_eq_ok_iff,
        Lowering.pure_eq_ok_iff] at hcode
      obtain ⟨index, _, ⟨hindex, rfl⟩, heq⟩ := hcode
      cases heq
      intro s s' flow hs ls _ st
      obtain ⟨body, hbody, hs⟩ := Option.bind_eq_some_iff.mp hs
      obtain ⟨s₁, hroutine, heq⟩ := Option.bind_eq_some_iff.mp hs
      cases heq
      exact ⟨_, .one (hcalls n (Nat.lt_succ_self n) hbody hindex hroutine ls st),
        .next (.refl _ _)⟩
    | .label .. => exact hnothing (by cases hcode; rfl) fun _ ↦ rfl
    | .sub .. => exact hnothing (by cases hcode; rfl) fun _ ↦ rfl
    | .empty .. => exact hnothing (by cases hcode; rfl) fun _ ↦ rfl

/-- The code of a block does what the block does, if calls with less fuel do. -/
theorem carriesBlocks (hI : Implements I w m) (hcalls : ∀ k < n, CarriesCalls I w m k) :
    CarriesBlocks I w m n := by
  induction n using Nat.strongRecOn with
  | _ n ih =>
    intro kind body ha hr scope before after code hcode hfits s s' flow hs ls hls st
    match n, body with
    | 0, _ => cases hs
    | n + 1, [] =>
      cases hcode
      cases hs
      exact ⟨_, .nil, .next (.refl _ _)⟩
    | n + 1, stmt :: rest =>
      obtain ⟨hrs, hrr⟩ := realizesAll_append.mp hr
      have hbelow (k : Nat) (hk : k < n + 1) : CarriesBlocks I w m k :=
        ih k hk fun j hj ↦ hcalls j (Nat.lt_trans hj hk)
      simp only [Setting.lowerStmts, Lowering.bind_eq_ok_iff, Lowering.pure_eq_ok_iff] at hcode
      obtain ⟨first, mid, hfirst, others, _, hothers, heq⟩ := hcode
      cases heq
      have hmid := (w.grows_lowerStmt _ _).length_le hfirst
      have hafter := (w.grows_lowerStmts _ _).length_le hothers
      obtain ⟨⟨flow₁, s₁⟩, hstmt, hrest⟩ := Option.bind_eq_some_iff.mp hs
      obtain ⟨r, hruns, hends⟩ := hI.carries_stmt (fun k hk ↦ hbelow k (Nat.lt_succ_of_lt hk))
        (fun k hk ↦ hcalls k (Nat.lt_succ_of_lt hk)) ha.1 hrs hfirst hfits hstmt
        (Nat.le_trans hafter hls) st
      cases hends with
      | next hkept =>
        obtain ⟨r, hruns', hends⟩ := hbelow n (Nat.lt_succ_self n) ha.2 hrr hothers
          (hfits.mono hmid) hrest (hkept.length ▸ hls) st
        exact ⟨r, hruns.append hruns', (hends.mono hmid).of_kept hkept⟩
      | jump hd hlabel hlength hselector =>
        cases hrest
        exact ⟨_, hruns.append_branch, .jump hd hlabel hlength hselector⟩

end Implements

end ScriptWasm
