import ScriptWasm.Proofs.Emission.Resolution
import ScriptWasm.Proofs.Execution.Statements

/-!
# The code of routines

A routine with labels is a loop around its segments. The segments are nested in blocks, so that
leaving the right number of blocks is the same as going to a segment: the loop looks at a local for
that number. From there the segments are run in order, until the last one ends or one of them
branches back to the loop.

What runs directly from behind a label therefore runs as the segments from a certain one on, and
whoever jumps leaves the number of that segment in the local.
-/

namespace ScriptWasm

open Wasm

variable {σ : Type} {I : Instance σ} {w : Setting} {m : Meaning σ} {scope : Scope}
  {before after : Locals} {n : Nat}

/-! ## Nested segments -/

/-- Segments are run in order, until one of them branches out of all of them. -/
inductive RunsSegments (I : Instance σ) :
    List (List Instr) → World σ → List Value → Exit × Config σ → Prop
  | nil {w : World σ} {ls : List Value} : RunsSegments I [] w ls (.done, ⟨w, ls, []⟩)
  | fall {code : List Instr} {rest : List (List Instr)} {w w' : World σ} {ls ls' : List Value}
    {r : Exit × Config σ} (h : I.Runs code ⟨w, ls, []⟩ (.done, ⟨w', ls', []⟩))
    (hrest : RunsSegments I rest w' ls' r) : RunsSegments I (code :: rest) w ls r
  | leave {code : List Instr} {rest : List (List Instr)} {w : World σ} {ls : List Value}
    {k : Nat} {c : Config σ} (h : I.Runs code ⟨w, ls, []⟩ (.branch (k + rest.length), c)) :
    RunsSegments I (code :: rest) w ls (.branch k, c)

/-- Code in front of the first segment. -/
theorem RunsSegments.prepend {code first : List Instr} {rest : List (List Instr)} {w w' : World σ}
    {ls ls' : List Value} {r : Exit × Config σ}
    (h : I.Runs code ⟨w, ls, []⟩ (.done, ⟨w', ls', []⟩))
    (hsegments : RunsSegments I (first :: rest) w' ls' r) :
    RunsSegments I ((code ++ first) :: rest) w ls r := by
  cases hsegments with
  | fall hfirst hrest => exact .fall (h.append hfirst) hrest
  | leave hfirst => exact .leave (h.append hfirst)

namespace Wasm.Instance.Runs

variable {inner : List Instr} {codes : List (List Instr)} {w w' : World σ}
  {ls ls' st' : List Value} {r : Exit × Config σ}

/-- A branch out of all segments. -/
theorem nestSegments_leave {k : Nat} {c : Config σ}
    (h : I.Runs inner ⟨w, ls, []⟩ (.branch (k + codes.length), c)) :
    I.Runs (nestSegments inner codes) ⟨w, ls, []⟩ (.branch k, c) := by
  induction codes generalizing inner with
  | nil => exact h
  | cons code rest ih =>
    have hblock : I.Steps (.block .empty inner) ⟨w, ls, []⟩
        (leave 0 [] (.branch (k + rest.length + 1), c)) := .block rfl h
    exact ih (.cons_branch hblock)

/-- What comes before the segments is followed by all of them. -/
theorem nestSegments_fall (h : I.Runs inner ⟨w, ls, []⟩ (.done, ⟨w', ls', []⟩))
    (hsegments : RunsSegments I codes w' ls' r) :
    I.Runs (nestSegments inner codes) ⟨w, ls, []⟩ r := by
  induction hsegments generalizing inner with
  | nil => exact h
  | @fall code rest w₁ w₂ ls₁ ls₂ r hcode _ ih =>
    have hblock : I.Steps (.block .empty inner) ⟨w, ls, []⟩
        (leave 0 [] (.done, ⟨w₁, ls₁, []⟩)) := .block rfl h
    exact ih (.cons hblock hcode)
  | @leave code rest w₁ ls₁ k c hcode =>
    have hblock : I.Steps (.block .empty inner) ⟨w, ls, []⟩
        (leave 0 [] (.done, ⟨w₁, ls₁, []⟩)) := .block rfl h
    rw [nestSegments]
    exact nestSegments_leave (.cons hblock hcode)

/-- A branch out of some blocks is followed by the segments behind them. -/
theorem nestSegments_enter {k : Nat} (h : I.Runs inner ⟨w, ls, []⟩ (.branch k, ⟨w', ls', st'⟩))
    (hk : k < codes.length) (hsegments : RunsSegments I (codes.drop k) w' ls' r) :
    I.Runs (nestSegments inner codes) ⟨w, ls, []⟩ r := by
  induction codes generalizing inner k with
  | nil => cases hk
  | cons code rest ih =>
    have hblock : I.Steps (.block .empty inner) ⟨w, ls, []⟩
        (leave 0 [] (.branch k, ⟨w', ls', st'⟩)) := .block rfl h
    cases k with
    | succ k => exact ih (.cons_branch hblock) (Nat.lt_of_succ_lt_succ hk) hsegments
    | zero =>
      rw [nestSegments]
      cases hsegments with
      | fall hcode hrest => exact nestSegments_fall (.cons hblock hcode) hrest
      | leave hcode => exact nestSegments_leave (.cons hblock hcode)

end Wasm.Instance.Runs

/-! ## Segments of a routine -/

theorem length_lowerSegments {parts : List (List Stmt)} {codes : List (List Instr)}
    (h : w.lowerSegments scope parts before = .ok (codes, after)) :
    codes.length = parts.length := by
  induction parts generalizing before codes with
  | nil =>
    cases h
    rfl
  | cons part rest ih =>
    simp only [Setting.lowerSegments, Lowering.bind_eq_ok_iff, Lowering.pure_eq_ok_iff] at h
    obtain ⟨first, mid, -, others, _, hothers, heq⟩ := h
    cases heq
    rw [List.length_cons, List.length_cons, ih hothers]

/-- The code of the segments from a certain one on is code of those segments. -/
theorem lowerSegments_drop {parts : List (List Stmt)} {codes : List (List Instr)}
    (h : w.lowerSegments scope parts before = .ok (codes, after)) (k : Nat) :
    ∃ mid, before.length ≤ mid.length ∧
      w.lowerSegments scope (parts.drop k) mid = .ok (codes.drop k, after) := by
  induction k generalizing parts codes before with
  | zero => exact ⟨before, Nat.le_refl _, h⟩
  | succ k ih =>
    cases parts with
    | nil =>
      cases h
      exact ⟨after, Nat.le_refl _, rfl⟩
    | cons part rest =>
      simp only [Setting.lowerSegments, Lowering.bind_eq_ok_iff, Lowering.pure_eq_ok_iff] at h
      obtain ⟨first, mid, hfirst, others, _, hothers, heq⟩ := h
      cases heq
      obtain ⟨mid', hle, hdrop⟩ := ih hothers
      exact ⟨mid', Nat.le_trans ((w.grows_lowerStmts _ _).length_le hfirst) hle, hdrop⟩

theorem mem_of_behind {name : String} {body rest : List Stmt} (h : behind name body = some rest)
    {s : Stmt} (hs : s ∈ rest) : s ∈ body := by
  induction body with
  | nil => cases h
  | cons first others ih =>
    rw [behind] at h
    split at h
    · cases h
      exact List.mem_cons_of_mem _ hs
    · exact List.mem_cons_of_mem _ (ih h)

/-- What is behind a label are the segments from that of the label on. -/
theorem segments_behind {name : String} {body rest : List Stmt} (h : behind name body = some rest) :
    ∃ i, (labelNames body).idxOf? name = some i ∧
      segments rest = (segments body).drop (i + 1) := by
  induction body with
  | nil => cases h
  | cons s others ih =>
    rw [behind] at h
    cases hs : s.labelName? with
    | none =>
      rw [hs, if_neg (by simp)] at h
      obtain ⟨i, hi, hrest⟩ := ih h
      obtain ⟨first, parts, hparts⟩ := List.exists_cons_of_ne_nil (segments_ne_nil others)
      refine ⟨i, by rw [labelNames_cons_of_none hs, hi], ?_⟩
      rw [hrest, segments_cons_of_none hs hparts, hparts, List.drop_succ_cons, List.drop_succ_cons]
    | some label =>
      obtain ⟨span, rfl⟩ := Stmt.eq_label hs
      simp only [labelNames_label, segments, List.drop_succ_cons]
      by_cases hname : label = name
      · rw [hs, if_pos (by rw [hname])] at h
        cases h
        exact ⟨0, by simp [hname, List.idxOf?_cons], rfl⟩
      · rw [hs, if_neg (by simpa using hname)] at h
        obtain ⟨i, hi, hrest⟩ := ih h
        exact ⟨i + 1, by simp [hname, List.idxOf?_cons, hi], hrest⟩

namespace Implements

/-- What runs directly as a list of statements runs as their segments. -/
theorem runs_segments (hI : Implements I w m) (hcalls : ∀ k < n, CarriesCalls I w m k)
    {kind : ScopeKind} {rest : List Stmt} (ha : m.host.registry.AdmitsStmts kind rest)
    (hr : RealizesAll I w m (m.host.registry.stmtsDemands rest)) {codes : List (List Instr)}
    (hcode : w.lowerSegments scope (segments rest) before = .ok (codes, after))
    (hfits : scope.Fits before.length) {s s' : m.State} {flow : Flow}
    (hs : m.runStmts n rest s = some (flow, s')) {ls : List Value}
    (hls : after.length ≤ ls.length) :
    ∃ r, RunsSegments I codes s.world ls r ∧ Ends w scope before.length ls [] s'.world flow r := by
  induction rest generalizing n before codes s ls with
  | nil =>
    cases hcode
    cases n with
    | zero => cases hs
    | succ n =>
      cases hs
      exact ⟨_, .fall .nil .nil, .next (.refl _ _)⟩
  | cons stmt rest ih =>
    cases n with
    | zero => cases hs
    | succ n =>
      obtain ⟨⟨flow₁, s₁⟩, hstmt, hrest⟩ := Option.bind_eq_some_iff.mp hs
      obtain ⟨hrs, hrr⟩ := realizesAll_append.mp hr
      have hcalls' (k : Nat) (hk : k < n) : CarriesCalls I w m k := hcalls k (Nat.lt_succ_of_lt hk)
      cases hl : stmt.labelName? with
      | some name =>
        -- A label begins a segment, and running it does nothing.
        obtain ⟨span, rfl⟩ := Stmt.eq_label hl
        simp only [segments, Setting.lowerSegments, Setting.lowerStmts, Lowering.bind_eq_ok_iff,
          Lowering.pure_eq_ok_iff] at hcode
        obtain ⟨first, _, hnil, others, _, hothers, heq⟩ := hcode
        cases hnil
        cases heq
        cases n with
        | zero => cases hstmt
        | succ n =>
          cases hstmt
          obtain ⟨r, hsegments, hends⟩ := ih hcalls' ha.2 hrr hothers hfits hrest hls
          exact ⟨r, .fall .nil hsegments, hends⟩
      | none =>
        obtain ⟨first, parts, hparts⟩ := List.exists_cons_of_ne_nil (segments_ne_nil rest)
        simp only [segments_cons_of_none hl hparts, Setting.lowerSegments, Setting.lowerStmts,
          Lowering.bind_eq_ok_iff, Lowering.pure_eq_ok_iff] at hcode
        obtain ⟨_, mid, ⟨scode, mid', hscode, fcode, _, hfcode, heq⟩, others, _, hothers, heq'⟩ :=
          hcode
        cases heq
        cases heq'
        have hsegments :
            w.lowerSegments scope (segments rest) mid' = .ok (fcode :: others, after) := by
          simp only [hparts, Setting.lowerSegments, Lowering.bind_eq_ok_iff,
            Lowering.pure_eq_ok_iff]
          exact ⟨fcode, mid, hfcode, others, after, hothers, rfl⟩
        have hle := (w.grows_lowerStmt _ _).length_le hscode
        have hle' := (w.grows_lowerSegments _ _).length_le hsegments
        have hfits' :
            { scope with depth := scope.depth + parts.length : Scope }.Fits before.length :=
          fun d hd ↦ ⟨Nat.le_add_right_of_le (hfits d hd).1, (hfits d hd).2⟩
        obtain ⟨r, hruns, hends⟩ := hI.carries_stmt
          (fun k hk ↦ hI.carriesBlocks fun j hj ↦ hcalls' j (Nat.lt_trans hj hk)) hcalls' ha.1 hrs
          hscode hfits' hstmt (Nat.le_trans hle' hls) []
        cases hends with
        | next hkept =>
          obtain ⟨r, hrun, hends⟩ := ih hcalls' ha.2 hrr hsegments (hfits.mono hle) hrest
            (hkept.length ▸ hls)
          exact ⟨r, hrun.prepend hruns, (hends.mono hle).of_kept hkept⟩
        | @jump name d segment ls' st' hd hlabel hlength hselector =>
          cases hrest
          have hdepth : scope.depth + parts.length - d.level =
              scope.depth - d.level + others.length := by
            have := (hfits d hd).1
            rw [length_lowerSegments hothers]
            omega
          rw [hdepth] at hruns
          exact ⟨_, .leave hruns.append_branch, .jump hd hlabel hlength hselector⟩

/-! ## The loop around segments -/

/-- The loop goes to the segment that its local holds. -/
theorem runs_choose {selector k count last : Nat} {world : World σ} {ls : List Value}
    (hget : ls[selector]? = some (.i32 (UInt32.ofNat k))) (hk : k < count)
    (hsmall : k < UInt32.size) :
    I.Runs [.localGet selector, .brTable (List.range count) last] ⟨world, ls, []⟩
      (.branch k, ⟨world, ls, []⟩) := by
  have hdepth : (List.range count).getD (UInt32.ofNat k).toNat last = k := by
    rw [UInt32.toNat_ofNat_of_lt' hsmall, List.getD_eq_getElem?_getD, List.getElem?_range hk,
      Option.getD_some]
  have htable : I.Steps (.brTable (List.range count) last) ⟨world, ls, [.i32 (UInt32.ofNat k)]⟩
      (.branch ((List.range count).getD (UInt32.ofNat k).toNat last), ⟨world, ls, []⟩) :=
    .brTable _ _ _
  rw [hdepth] at htable
  exact .cons (.localGet hget) (.one htable)

/-- Running what is left of a routine is running the loop with the number of its segment. Every jump
is another pass of the loop. -/
theorem steps_dispatch (hI : Implements I w m) (hcalls : ∀ k < n, CarriesCalls I w m k)
    {kind : ScopeKind} {routine : Routine} {body : List Stmt}
    (ha : m.host.registry.AdmitsStmts kind body)
    (hr : RealizesAll I w m (m.host.registry.stmtsDemands body))
    (hlabels : w.tables.labelsOf routine = labelNames body)
    (hfew : (labelNames body).length < UInt32.size) {selector last : Nat}
    {codes : List (List Instr)}
    (hcode : w.lowerSegments ((Scope.top routine).opened.dispatching selector) (segments body)
      before = .ok (codes, after)) (hselector : selector < before.length) {rest : List Stmt}
    (hsub : rest ⊆ body) {k : Nat} (hrest : segments rest = (segments body).drop k)
    (hk : k < (segments body).length) {s s' : m.State} (hs : m.runRoutine n body rest s = some s')
    {ls : List Value} (hls : after.length ≤ ls.length)
    (hget : ls[selector]? = some (.i32 (UInt32.ofNat k))) (st : List Value) :
    ∃ ls', I.Steps (.loop .empty (nestSegments
        [.localGet selector, .brTable (List.range (segments body).length) last] codes))
      ⟨s.world, ls, st⟩ (.done, ⟨s'.world, ls', st⟩) := by
  induction n generalizing rest k s ls with
  | zero => cases hs
  | succ n ih =>
    obtain ⟨⟨flow, s₁⟩, hstmts, hend⟩ := Option.bind_eq_some_iff.mp hs
    obtain ⟨mid, hmid, hdrop⟩ := lowerSegments_drop hcode k
    rw [← hrest] at hdrop
    have hcalls' (k : Nat) (hk : k < n) : CarriesCalls I w m k := hcalls k (Nat.lt_succ_of_lt hk)
    have harest : m.host.registry.AdmitsStmts kind rest := ha.of_subset hsub
    have hrrest : RealizesAll I w m (m.host.registry.stmtsDemands rest) := fun d hd ↦
      hr d (Registry.stmtsDemands_subset hsub hd)
    have hfits : ((Scope.top routine).opened.dispatching selector).Fits mid.length := by
      intro d hd
      cases hd
      exact ⟨Nat.le_refl _, Nat.lt_of_lt_of_le hselector hmid⟩
    obtain ⟨r, hsegments, hends⟩ := hI.runs_segments hcalls' harest hrrest hdrop hfits hstmts hls
    have hlength := length_segments body
    have hchoose : I.Runs [.localGet selector, .brTable (List.range (segments body).length) last]
        ⟨s.world, ls, []⟩ (.branch k, ⟨s.world, ls, []⟩) := runs_choose hget hk (by omega)
    have hruns := hchoose.nestSegments_enter (by rwa [length_lowerSegments hcode]) hsegments
    cases hends with
    | @next ls' hkept =>
      cases hend
      exact ⟨ls', .loop_done hruns⟩
    | @jump name d segment ls' st' hd hlabel hlength' hsel =>
      cases hd
      obtain ⟨rest', hbehind, hagain⟩ := Option.bind_eq_some_iff.mp hend
      obtain ⟨i, hi, hrest'⟩ := segments_behind hbehind
      obtain rfl : segment = i + 1 := by
        rw [Tables.label, Scope.routine_dispatching, Scope.routine_opened, Scope.routine_top,
          hlabels, hi] at hlabel
        exact (Except.ok.inj hlabel).symm
      have hi' : i < (labelNames body).length := by
        rw [List.idxOf?, List.findIdx?_eq_some_iff_getElem] at hi
        exact hi.1
      obtain ⟨ls'', hloop⟩ := ih hcalls' (fun _ ↦ mem_of_behind hbehind) hrest' (by omega) hagain
        (hlength' ▸ hls) hsel
      exact ⟨ls'', .loop_again hruns hloop⟩

end Implements

/-! ## Calls of routines -/

/-- The function of a routine is its code, and what the code relies on is there. -/
structure Callable (I : Instance σ) (w : Setting) (m : Meaning σ) (routine : Routine)
    (body : List Stmt) : Prop where
  code : ∃ code, w.routineCode routine body = .ok code ∧
    I.callee? (w.tables.function routine) = some (.code ⟨[], []⟩ code)
  admitted : ∃ kind, m.host.registry.AdmitsStmts kind body
  realized : RealizesAll I w m (m.host.registry.stmtsDemands body)
  labels : w.tables.labelsOf routine = labelNames body
  few : (labelNames body).length < UInt32.size

/-- A subroutine is found at the position of its name. -/
theorem find?_eq_getElem? {name : String} {subs : List (String × List Stmt)} {i : Nat}
    (h : (subs.map Prod.fst).idxOf? name = some i) : subs.find? (·.1 = name) = subs[i]? := by
  induction subs generalizing i with
  | nil => cases h
  | cons sub rest ih =>
    rw [List.map_cons, List.idxOf?_cons] at h
    by_cases hname : sub.1 = name
    · rw [if_pos (beq_iff_eq.mpr hname)] at h
      cases h
      rw [List.find?_cons_of_pos (by simpa using hname), List.getElem?_cons_zero]
    · rw [if_neg (by simpa using hname)] at h
      obtain ⟨j, hj, rfl⟩ := Option.map_eq_some_iff.mp h
      rw [List.find?_cons_of_neg (by simpa using hname), ih hj, List.getElem?_cons_succ]

theorem zeros?_of_words {code : Code} {n : Nat} (h : code.locals = List.replicate n (1, .i32)) :
    code.zeros? = some (List.replicate n (.i32 0)) := by
  rw [Code.zeros?, h]
  clear h
  induction n with
  | zero => rfl
  | succ n ih => simp_all [List.replicate_succ, Value.zero?]

namespace Implements

/-- Calling a routine does what the routine does, if calls with less fuel do. -/
theorem steps_call (hI : Implements I w m) (hcalls : ∀ k < n, CarriesCalls I w m k)
    {routine : Routine} {body : List Stmt} (h : Callable I w m routine body) {s s' : m.State}
    (hs : m.runRoutine n body body s = some s') (ls st : List Value) :
    I.Steps (.call (w.tables.function routine)) ⟨s.world, ls, st⟩ (.done, ⟨s'.world, ls, st⟩) := by
  obtain ⟨code, hcode, hcallee⟩ := h.code
  obtain ⟨kind, ha⟩ := h.admitted
  obtain ⟨count, hlocals, hbody⟩ := w.locals_routineCode hcode
  suffices hruns : ∃ ls' st', I.Runs code.body ⟨s.world, List.replicate count (.i32 0), []⟩
      (.done, ⟨s'.world, ls', st'⟩) by
    obtain ⟨ls', st', hruns⟩ := hruns
    exact .callCode hcallee (zeros?_of_words hlocals) hruns
  have hls : (List.replicate count ValType.i32).length ≤
      (List.replicate count (Value.i32 0)).length :=
    Nat.le_of_eq (by rw [List.length_replicate, List.length_replicate])
  obtain ⟨-, hcode⟩ | ⟨codes, hcodes, hinstrs⟩ := w.lowerRoutine_cases hbody
  · -- Without labels there is nothing to jump to, and no loop.
    cases n with
    | zero => cases hs
    | succ n =>
      obtain ⟨⟨flow, s₁⟩, hstmts, hend⟩ := Option.bind_eq_some_iff.mp hs
      obtain ⟨r, hruns, hends⟩ := hI.carriesBlocks (fun k hk ↦ hcalls k (Nat.lt_succ_of_lt hk)) ha
        h.realized hcode (fun d hd ↦ nomatch hd) hstmts hls []
      cases hends with
      | next hkept =>
        cases hend
        exact ⟨_, _, hruns⟩
      | jump hd => cases hd
  · have hcount : 0 < count := by
      have := (w.grows_lowerSegments _ _).length_le hcodes
      rwa [List.length_replicate] at this
    have hzero : (List.replicate count (Value.i32 0))[0]? = some (.i32 (UInt32.ofNat 0)) := by
      rw [List.getElem?_replicate, if_pos hcount]
      rfl
    obtain ⟨ls', hloop⟩ := hI.steps_dispatch hcalls ha h.realized h.labels h.few hcodes (by simp)
      (List.Subset.refl body) rfl (List.length_pos_iff.mpr (segments_ne_nil body)) hs hls hzero []
    exact ⟨ls', [], hinstrs ▸ .one hloop⟩

/-- Calls of subroutines do what the subroutines do. -/
theorem carriesCalls (hI : Implements I w m)
    (hcallable : ∀ i sub, m.subroutines[i]? = some sub → Callable I w m (.subroutine i) sub.2) :
    CarriesCalls I w m n := by
  induction n using Nat.strongRecOn with
  | _ n ih =>
    intro name body index hbody hindex s s' hs ls st
    rw [Tables.subroutine, hI.subroutines] at hindex
    split at hindex
    · rename_i hfound
      cases hindex
      rw [Meaning.body?, find?_eq_getElem? hfound] at hbody
      obtain ⟨sub, hsub, rfl⟩ := Option.map_eq_some_iff.mp hbody
      exact hI.steps_call ih (hcallable _ sub hsub) hs ls st
    · cases hindex

end Implements

end ScriptWasm
