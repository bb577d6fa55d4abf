import ScriptWasm.Proofs.Emission.Locals
import ScriptWasm.Proofs.Execution.Expressions

/-!
# The code of assignments and of loop bounds

Code without branches that keeps intermediate values in locals. Its locals lie above those that were
there when it was emitted, so whatever the code around it keeps in locals stays as it is.
-/

namespace ScriptWasm

open Wasm

variable {σ : Type}

/-! ## Locals that are left alone -/

/-- The locals below an index are as they were. -/
structure Kept (k : Nat) (ls ls' : List Value) : Prop where
  length : ls'.length = ls.length
  below : ∀ i < k, ls'[i]? = ls[i]?

namespace Kept

variable {j k i : Nat} {ls ls' ls'' : List Value}

theorem refl (k : Nat) (ls : List Value) : Kept k ls ls := ⟨rfl, fun _ _ ↦ rfl⟩

theorem trans (h : Kept k ls ls') (h' : Kept k ls' ls'') : Kept k ls ls'' :=
  ⟨h'.length.trans h.length, fun i hi ↦ (h'.below i hi).trans (h.below i hi)⟩

theorem mono (h : Kept k ls ls') (hjk : j ≤ k) : Kept j ls ls' :=
  ⟨h.length, fun i hi ↦ h.below i (Nat.lt_of_lt_of_le hi hjk)⟩

theorem set (hi : k ≤ i) (v : Value) : Kept k ls (ls.set i v) :=
  ⟨List.length_set, fun j hj ↦ List.getElem?_set_ne (by omega)⟩

end Kept

variable {I : Instance σ} {w : Setting} {m : Meaning σ}

namespace Implements

/-- A call of a function that takes a word and gives nothing. -/
theorem steps_setter (hI : Implements I w m) {source : ImportRef}
    (hr : Realizes I w m (.function source setterSignature)) {i : Instr}
    (hi : w.callImport source = .ok i) (v : UInt32) (s : m.State) {ls st : List Value} :
    I.Steps i ⟨s.world, ls, .i32 v :: st⟩
      (.done, ⟨(m.invoke source [.i32 v] s).2.world, ls, st⟩) := by
  have hstep : I.Steps i ⟨s.world, ls, .i32 v :: st⟩ _ := hI.steps_invoke hr hi [.i32 v] rfl s
  have hnone : (m.invoke source [.i32 v] s).1 = [] := by
    simpa [setterSignature] using types_invoke hr [.i32 v] rfl s
  rwa [hnone] at hstep

/-! ## Elements -/

/-- The array in a local is left on the stack with a value stored in it. -/
theorem runs_lowerStore (hI : Implements I w m) {value : Expr}
    (hvalue : m.host.registry.AdmitsExpr value)
    (hrv : RealizesAll I w m (m.host.registry.exprDemands value)) {indices : List Expr}
    (ha : m.host.registry.AdmitsExprs indices)
    (hr : RealizesAll I w m (m.host.registry.exprsDemands indices)) {array : Nat}
    {before after : Locals} {code : List Instr}
    (hcode : w.lowerStore array value indices before = .ok (code, after))
    (harray : array < before.length) {ls : List Value} (hls : after.length ≤ ls.length) {a : UInt32}
    (hget : ls[array]? = some (.i32 a)) (s : m.State) (st : List Value) :
    ∃ ls', Kept before.length ls ls' ∧ I.Runs code ⟨s.world, ls, st⟩
      (.done, ⟨(m.update value indices a s).2.world, ls',
        .i32 (m.update value indices a s).1 :: st⟩) := by
  induction indices generalizing array before code ls a s st with
  | nil => simp [Setting.lowerStore] at hcode
  | cons first rest ih =>
    obtain ⟨hrf, hrr⟩ := realizesAll_append.mp hr
    cases rest with
    | nil =>
      simp only [Setting.lowerStore, Lowering.bind_eq_ok_iff, Lowering.lift_eq_ok_iff,
        Lowering.pure_eq_ok_iff] at hcode
      obtain ⟨icode, _, ⟨hi, rfl⟩, vcode, _, ⟨hv, rfl⟩, call, _, ⟨hcall, rfl⟩, heq⟩ := hcode
      cases heq
      refine ⟨ls, .refl _ _, ?_⟩
      rw [Meaning.update, List.cons_append, List.cons_append, List.append_assoc]
      exact .cons (.localGet hget) ((hI.runs_lowerExpr ha.1 hrf hi s _).append
        ((hI.runs_lowerExpr hvalue hrv hv _ _).append
          (.one (hI.steps_operate hcall [.i32 a, .i32 _, .i32 _] rfl _))))
    | cons second rest =>
      simp only [Setting.lowerStore, Lowering.bind_eq_ok_iff, Lowering.lift_eq_ok_iff,
        Lowering.addLocal_eq_ok_iff, Lowering.pure_eq_ok_iff] at hcode
      obtain ⟨position, _, ⟨rfl, rfl⟩, inner, _, ⟨rfl, rfl⟩, icode, _, ⟨hi, rfl⟩, get, _,
        ⟨hg, rfl⟩, store, after', hstore, call, _, ⟨hcall, rfl⟩, heq⟩ := hcode
      cases heq
      have hgrown := (w.grows_lowerStore _ _ _).length_le hstore
      simp only [List.length_append, List.length_singleton] at hgrown
      have hp : before.length < ls.length := by omega
      have hq : before.length + 1 < ls.length := by omega
      -- The index and the inner array go to the two new locals.
      let i := (m.eval first s).1
      let s₁ := (m.eval first s).2
      let inner := (m.operate .getElement [.i32 a, .i32 i] s₁).1
      let s₂ := (m.operate .getElement [.i32 a, .i32 i] s₁).2
      let ls₁ := ls.set before.length (.i32 i)
      let ls₂ := ls₁.set (before.length + 1) (.i32 inner)
      have hkept₁ : Kept before.length ls ls₁ := .set (Nat.le_refl _) _
      have hkept₂ : Kept (before.length + 1) ls₁ ls₂ := .set (Nat.le_refl _) _
      have harray₁ : ls₁[array]? = some (.i32 a) := by rw [hkept₁.below array harray, hget]
      have harray₂ : ls₂[array]? = some (.i32 a) := by rw [hkept₂.below array (by omega), harray₁]
      have hindex₁ : ls₁[before.length]? = some (.i32 i) := List.getElem?_set_self hp
      have hindex₂ : ls₂[before.length]? = some (.i32 i) := by
        rw [hkept₂.below _ (Nat.lt_succ_self _), hindex₁]
      have hq₁ : before.length + 1 < ls₁.length := by rwa [hkept₁.length]
      have hinner : ls₂[before.length + 1]? = some (.i32 inner) := List.getElem?_set_self hq₁
      have hfetch : I.Runs [.localSet before.length, .localGet array, .localGet before.length, get,
          .localSet (before ++ [ValType.i32]).length, .localGet array, .localGet before.length]
          ⟨s₁.world, ls, .i32 i :: st⟩ (.done, ⟨s₂.world, ls₂, .i32 i :: .i32 a :: st⟩) := by
        rw [List.length_append, List.length_singleton]
        exact .cons (.localSet hp) (.cons (.localGet harray₁) (.cons (.localGet hindex₁)
          (.cons (hI.steps_operate hg [.i32 a, .i32 i] rfl s₁) (.cons (.localSet hq₁)
            (.cons (.localGet harray₂) (.one (.localGet hindex₂)))))))
      have hls₂ : after.length ≤ ls₂.length := by rwa [hkept₂.length, hkept₁.length]
      obtain ⟨ls₃, hkept₃, hruns⟩ := ih ha.2 hrr hstore (by simp) hls₂ (by simpa using hinner) s₂
        (.i32 i :: .i32 a :: st)
      refine ⟨ls₃, (hkept₁.trans (hkept₂.mono (Nat.le_succ _))).trans (hkept₃.mono (by simp)), ?_⟩
      have hupdate : m.update value (first :: second :: rest) a s =
          m.operate .setElement [.i32 a, .i32 i, .i32 (m.update value (second :: rest) inner s₂).1]
            (m.update value (second :: rest) inner s₂).2 := rfl
      rw [hupdate]
      exact (((hI.runs_lowerExpr ha.1 hrf hi s st).append hfetch).append hruns).append
        (.one (hI.steps_operate hcall [.i32 a, .i32 i, .i32 _] rfl _))

/-! ## Assignments -/

/-- The code of an assignment does what the assignment does. -/
theorem runs_lowerAssign (hI : Implements I w m) {value : Expr} {target : Target}
    (ha : m.host.registry.AdmitsAssign value target)
    (hr : RealizesAll I w m (m.host.registry.assignDemands value target)) {before after : Locals}
    {code : List Instr} (hcode : w.lowerAssign value target before = .ok (code, after))
    {ls : List Value} (hls : after.length ≤ ls.length) (s : m.State) (st : List Value) :
    ∃ ls', Kept before.length ls ls' ∧
      I.Runs code ⟨s.world, ls, st⟩ (.done, ⟨(m.assign value target s).world, ls', st⟩) := by
  match target with
  | .variable name =>
    simp only [Setting.lowerAssign, Lowering.bind_eq_ok_iff, Lowering.lift_eq_ok_iff,
      Lowering.pure_eq_ok_iff] at hcode
    obtain ⟨vcode, _, ⟨hv, rfl⟩, i, _, ⟨hi, rfl⟩, heq⟩ := hcode
    cases heq
    exact ⟨ls, .refl _ _, (hI.runs_lowerExpr ha hr hv s st).append (.one (hI.steps_write hi _ _))⟩
  | .index array indices =>
    obtain ⟨hri, hrv⟩ := realizesAll_append.mp hr
    simp only [Setting.lowerAssign, Lowering.bind_eq_ok_iff, Lowering.lift_eq_ok_iff,
      Lowering.addLocal_eq_ok_iff, Lowering.pure_eq_ok_iff] at hcode
    obtain ⟨i, before, ⟨hi, rfl⟩, whole, _, ⟨rfl, rfl⟩, store, after', hstore, heq⟩ := hcode
    cases heq
    have hgrown := (w.grows_lowerStore _ _ _).length_le hstore
    rw [List.length_append, List.length_singleton] at hgrown
    have hp : before.length < ls.length := by omega
    have hkept : Kept before.length ls (ls.set before.length (.i32 (m.read array s))) :=
      .set (Nat.le_refl _) _
    obtain ⟨ls', hkept', hruns⟩ := hI.runs_lowerStore ha.2 hrv ha.1 hri hstore (by simp)
      (by rwa [hkept.length]) (List.getElem?_set_self hp) s st
    refine ⟨ls', hkept.trans (hkept'.mono (by simp)), ?_⟩
    exact .cons (hI.steps_read hi s) (.cons (.localSet hp)
      (hruns.append (.one (hI.steps_write hi _ _))))
  | .property type name =>
    obtain ⟨hrs, hrv⟩ := realizesAll_append.mp hr
    obtain ⟨⟨p, hp, hset⟩, hvalue⟩ := ha
    obtain ⟨source, hs⟩ := Option.isSome_iff_exists.mp hset
    have hsetter : w.host.setter type name = .ok source :=
      Host.setter_eq_ok_iff.mpr ⟨p, hI.host ▸ hp, hs⟩
    simp only [Setting.lowerAssign, Lowering.bind_eq_ok_iff, Lowering.lift_eq_ok_iff,
      Lowering.pure_eq_ok_iff, hsetter, Except.ok.injEq] at hcode
    obtain ⟨_, _, ⟨rfl, rfl⟩, vcode, _, ⟨hv, rfl⟩, call, _, ⟨hcall, rfl⟩, heq⟩ := hcode
    cases heq
    have hsource : Realizes I w m (.function source setterSignature) := hrs _ (by
      simp [Registry.setterDemands, hp, hs])
    refine ⟨ls, .refl _ _, ?_⟩
    simp only [Meaning.assign, hp, Option.bind_some, hs]
    exact (hI.runs_lowerExpr hvalue hrv hv s st).append
      (.one (hI.steps_setter hsource hcall _ _))
  | .event type name =>
    obtain ⟨e, he⟩ := ha
    have hevent : w.host.event type name = .ok e := Host.event_eq_ok_iff.mpr (hI.host ▸ he)
    have hsource : Realizes I w m (.function e.subscribe setterSignature) := hr _ (by
      simp [Registry.assignDemands, Registry.eventDemands, he])
    cases value with
    | «variable» handler =>
      simp only [Setting.lowerAssign, Lowering.bind_eq_ok_iff, Lowering.lift_eq_ok_iff,
        Lowering.pure_eq_ok_iff, hevent, Except.ok.injEq] at hcode
      obtain ⟨_, _, ⟨rfl, rfl⟩, index, _, ⟨hindex, rfl⟩, call, _, ⟨hcall, rfl⟩, heq⟩ := hcode
      cases heq
      have hposition : m.position handler = index := by
        rw [Tables.subroutine, hI.subroutines] at hindex
        rw [Meaning.position]
        split at hindex
        · rename_i j hj
          cases hindex
          rw [hj, Option.getD_some]
        · cases hindex
      refine ⟨ls, .refl _ _, ?_⟩
      simp only [Meaning.assign, he, hposition]
      exact .cons (.i32Const _) (.one (hI.steps_setter hsource hcall _ s))
    | _ => simp [Setting.lowerAssign] at hcode

/-! ## Bounds of counting loops -/

/-- The variable of a loop is compared with the end. -/
theorem runs_compareEnd (hI : Implements I w m) {name : String} {slot stop : Nat}
    (hslot : w.tables.slot name = .ok slot) {op : Operator}
    (hop : op.signature.params = [.i32, .i32]) {code : List Instr}
    (hcode : w.compareEnd op slot stop = .ok code) {ls : List Value} {last : UInt32}
    (hstop : ls[stop]? = some (.i32 last)) (s : m.State) (st : List Value) :
    I.Runs code ⟨s.world, ls, st⟩
      (.done, ⟨(m.operate op [.i32 (m.read name s), .i32 last] s).2.world, ls,
        .i32 (m.operate op [.i32 (m.read name s), .i32 last] s).1 :: st⟩) := by
  simp only [Setting.compareEnd, bind_eq_ok_iff, pure_eq_ok_iff] at hcode
  obtain ⟨call, hcall, rfl⟩ := hcode
  exact .cons (hI.steps_read hslot s) (.cons (.localGet hstop)
    (.one (hI.steps_operate hcall [.i32 _, .i32 last] hop.symm s)))

/-- What is on the stack decides if it comes from the comparison that the direction asks for. -/
theorem decides_of_compare (hI : Implements I w m) {name : String} {k : Meaning.Counting}
    {op : Operator} (hop : op = if k.down then .greaterThanOrEqual else .lessThanOrEqual)
    {ls : List Value} {compare : List Instr}
    (hcompare : ∀ (s : m.State) (st : List Value), I.Runs compare ⟨s.world, ls, st⟩
      (.done, ⟨(m.operate op [.i32 (m.read name s), .i32 k.stop] s).2.world, ls,
        .i32 (m.operate op [.i32 (m.read name s), .i32 k.stop] s).1 :: st⟩))
    {call : Instr} (hcall : w.callOperator .toBoolean = .ok call) :
    Decides I m (m.goesOn name k) ls (compare ++ [call]) := by
  intro s st
  obtain ⟨x, hstep, hx⟩ := hI.steps_truth hcall _ _
  rw [Meaning.goesOn, ← hop]
  exact ⟨x, (hcompare s st).append (.one hstep), hx⟩

/-- A loop without a step counts up. -/
theorem decides_up (hI : Implements I w m) {name : String} {slot stop : Nat}
    (hslot : w.tables.slot name = .ok slot) {k : Meaning.Counting} (hdown : k.down = false)
    {up : List Instr} (hup : w.compareEnd .lessThanOrEqual slot stop = .ok up) {call : Instr}
    (hcall : w.callOperator .toBoolean = .ok call) {ls : List Value}
    (hstop : ls[stop]? = some (.i32 k.stop)) : Decides I m (m.goesOn name k) ls (up ++ [call]) :=
  hI.decides_of_compare (by rw [hdown, if_neg Bool.false_ne_true])
    (fun s st ↦ hI.runs_compareEnd hslot rfl hup hstop s st) hcall

/-- With a step, a word in a local tells the direction. -/
theorem decides_either (hI : Implements I w m) {name : String} {slot stop flag : Nat}
    (hslot : w.tables.slot name = .ok slot) {k : Meaning.Counting} {f : UInt32}
    (hf : k.down = true ↔ f ≠ 0) {down up : List Instr}
    (hdown : w.compareEnd .greaterThanOrEqual slot stop = .ok down)
    (hup : w.compareEnd .lessThanOrEqual slot stop = .ok up) {call : Instr}
    (hcall : w.callOperator .toBoolean = .ok call) {ls : List Value}
    (hstop : ls[stop]? = some (.i32 k.stop)) (hflag : ls[flag]? = some (.i32 f)) :
    Decides I m (m.goesOn name k) ls [.localGet flag, .ifElse (.value .i32) down up, call] := by
  by_cases hzero : f = 0
  · have hop : (.lessThanOrEqual : Operator) = if k.down then .greaterThanOrEqual else
        .lessThanOrEqual := by rw [if_neg fun h ↦ hf.mp h hzero]
    exact hI.decides_of_compare hop (fun s st ↦ .cons (.localGet hflag) (.one (.ifElse (by
      rw [if_pos hzero]
      exact .block_value (hI.runs_compareEnd hslot rfl hup hstop s []))))) hcall
  · have hop : (.greaterThanOrEqual : Operator) = if k.down then .greaterThanOrEqual else
        .lessThanOrEqual := by rw [if_pos (hf.mpr hzero)]
    exact hI.decides_of_compare hop (fun s st ↦ .cons (.localGet hflag) (.one (.ifElse (by
      rw [if_neg hzero]
      exact .block_value (hI.runs_compareEnd hslot rfl hdown hstop s []))))) hcall

/-- Whether a step is below zero goes to a new local. -/
theorem runs_lowerDescending (hI : Implements I w m) {by_ flag : Nat} {before after : Locals}
    {code : List Instr} (hcode : w.lowerDescending by_ before = .ok ((flag, code), after))
    {ls : List Value} {v : UInt32} (hby : ls[by_]? = some (.i32 v))
    (hls : after.length ≤ ls.length) (s : m.State) (st : List Value) :
    flag = before.length ∧ before.length < after.length ∧ ∃ f, I.Runs code ⟨s.world, ls, st⟩
        (.done, ⟨(m.descends v s).2.world, ls.set flag (.i32 f), st⟩) ∧
      ((m.descends v s).1 = true ↔ f ≠ 0) := by
  simp only [Setting.lowerDescending, Lowering.bind_eq_ok_iff, Lowering.lift_eq_ok_iff,
    Lowering.addLocal_eq_ok_iff, Lowering.pure_eq_ok_iff] at hcode
  obtain ⟨_, _, ⟨rfl, rfl⟩, zero, _, ⟨hzero, rfl⟩, less, _, ⟨hless, rfl⟩, call, _, ⟨hcall, rfl⟩,
    heq⟩ := hcode
  cases heq
  have hlt : before.length < (before ++ [ValType.i32]).length := by simp
  obtain ⟨f, hstep, hf⟩ := hI.steps_truth hcall _ _
  refine ⟨rfl, hlt, f, ?_, hf⟩
  exact .cons (.localGet hby) ((hI.runs_lowerNumber hzero s).append
    (.cons (hI.steps_operate hless [.i32 v, .i32 _] rfl _)
      (.cons hstep (.one (.localSet (Nat.lt_of_lt_of_le hlt hls))))))

/-- Entering a loop leaves its end and its step in locals, and as long as they stay there it is
decided from them whether to go on. -/
theorem runs_lowerBounds (hI : Implements I w m) {name : String} {slot stop by_ : Nat}
    (hslot : w.tables.slot name = .ok slot) {start last : Expr} {step : Option Expr}
    (hstart : m.host.registry.AdmitsExpr start) (hlast : m.host.registry.AdmitsExpr last)
    (hstep : m.host.registry.AdmitsExprs step.toList)
    (hrs : RealizesAll I w m (m.host.registry.exprDemands start))
    (hrl : RealizesAll I w m (m.host.registry.exprDemands last))
    (hrst : RealizesAll I w m (m.host.registry.exprsDemands step.toList))
    {before after : Locals} {enter condition : List Instr}
    (hcode : w.lowerBounds slot stop by_ start last step before = .ok ((enter, condition), after))
    (hstop : stop < by_) (hby : by_ < before.length) {ls : List Value}
    (hls : after.length ≤ ls.length) (s : m.State) (st : List Value) :
    ∃ ls', Kept stop ls ls' ∧ I.Runs enter ⟨s.world, ls, st⟩
        (.done, ⟨(m.enter name start last step s).2.world, ls', st⟩) ∧
      ls'[by_]? = some (.i32 (m.enter name start last step s).1.step) ∧
      ∀ ls'', Kept after.length ls' ls'' →
        Decides I m (m.goesOn name (m.enter name start last step s).1) ls'' condition := by
  have hgrown := (w.grows_lowerBounds _ _ _ _ _ _).length_le hcode
  let s₁ := m.write name (m.eval start s).1 (m.eval start s).2
  let v := (m.eval last s₁).1
  let s₂ := (m.eval last s₁).2
  let ls₁ := ls.set stop (.i32 v)
  have hkept₁ : Kept stop ls ls₁ := .set (Nat.le_refl _) _
  have hstop₁ : ls₁[stop]? = some (.i32 v) := List.getElem?_set_self (by omega)
  have hby₁ : by_ < ls₁.length := by rw [hkept₁.length]; omega
  cases step with
  | none =>
    simp only [Setting.lowerBounds, Lowering.bind_eq_ok_iff, Lowering.lift_eq_ok_iff,
      Lowering.pure_eq_ok_iff] at hcode
    obtain ⟨scode, _, ⟨hs, rfl⟩, lcode, _, ⟨hl, rfl⟩, ncode, _, ⟨hn, rfl⟩, up, _, ⟨hup, rfl⟩,
      call, _, ⟨hcall, rfl⟩, heq⟩ := hcode
    cases heq
    let ls₂ := ls₁.set by_ (.i32 (m.number Setting.one s₂).1)
    have hkept₂ : Kept by_ ls₁ ls₂ := .set (Nat.le_refl _) _
    refine ⟨ls₂, hkept₁.trans (hkept₂.mono (Nat.le_of_lt hstop)), ?_,
      List.getElem?_set_self hby₁, fun ls'' hkept ↦ ?_⟩
    · exact (((hI.runs_lowerExpr hstart hrs hs s st).append
        (.cons (hI.steps_write hslot _ _) (hI.runs_lowerExpr hlast hrl hl s₁ st))).append
        (.cons (.localSet (by omega)) (hI.runs_lowerNumber hn s₂))).append
        (.one (.localSet hby₁))
    · refine hI.decides_up hslot rfl hup hcall ?_
      rw [hkept.below stop (by omega), hkept₂.below stop hstop, hstop₁]
      rfl
  | some step =>
    simp only [Setting.lowerBounds, Lowering.bind_eq_ok_iff, Lowering.lift_eq_ok_iff,
      Lowering.pure_eq_ok_iff] at hcode
    obtain ⟨scode, _, ⟨hs, rfl⟩, lcode, _, ⟨hl, rfl⟩, bcode, before, ⟨hb, rfl⟩,
      ⟨flag, descending⟩, _, hdescending, down, _, ⟨hdown, rfl⟩, up, _, ⟨hup, rfl⟩,
      call, _, ⟨hcall, rfl⟩, heq⟩ := hcode
    cases heq
    let ls₂ := ls₁.set by_ (.i32 (m.eval step s₂).1)
    have hkept₂ : Kept by_ ls₁ ls₂ := .set (Nat.le_refl _) _
    have hby₂ : ls₂[by_]? = some (.i32 (m.eval step s₂).1) := List.getElem?_set_self hby₁
    obtain ⟨rfl, hlt, f, hruns, hf⟩ := hI.runs_lowerDescending hdescending hby₂
      (by rw [hkept₂.length, hkept₁.length]; exact hls) (m.eval step s₂).2 st
    have hkept₃ : Kept before.length ls₂ (ls₂.set before.length (.i32 f)) :=
      .set (Nat.le_refl _) _
    have hflag : (ls₂.set before.length (.i32 f))[before.length]? = some (.i32 f) :=
      List.getElem?_set_self (by rw [hkept₂.length, hkept₁.length]; omega)
    refine ⟨_, (hkept₁.trans (hkept₂.mono (Nat.le_of_lt hstop))).trans (hkept₃.mono (by omega)),
      ?_, (hkept₃.below by_ hby).trans hby₂, fun ls'' hkept ↦ ?_⟩
    · exact (((hI.runs_lowerExpr hstart hrs hs s st).append
        (.cons (hI.steps_write hslot _ _) (hI.runs_lowerExpr hlast hrl hl s₁ st))).append
        (.cons (.localSet (by omega)) (hI.runs_lowerExpr hstep.1 (realizesAll_append.mp hrst).1 hb
          s₂ st))).append
        (.cons (.localSet hby₁) hruns)
    · refine hI.decides_either hslot hf hdown hup hcall ?_ ((hkept.below _ hlt).trans hflag)
      rw [hkept.below stop (by omega), hkept₃.below stop (by omega), hkept₂.below stop hstop,
        hstop₁]
      rfl

theorem runs_advance (hI : Implements I w m) {name : String} {slot by_ : Nat}
    (hslot : w.tables.slot name = .ok slot) {add : Instr} (hadd : w.callOperator .add = .ok add)
    {k : Meaning.Counting} {ls : List Value} (hby : ls[by_]? = some (.i32 k.step)) (s : m.State)
    (st : List Value) :
    I.Runs [.globalGet slot, .localGet by_, add, .globalSet slot] ⟨s.world, ls, st⟩
      (.done, ⟨(m.advance name k s).world, ls, st⟩) :=
  .cons (hI.steps_read hslot s) (.cons (.localGet hby)
    (.cons (hI.steps_operate hadd [.i32 _, .i32 _] rfl s) (.one (hI.steps_write hslot _ _))))

end Implements

end ScriptWasm
