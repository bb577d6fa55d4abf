import ScriptWasm.Proofs.Execution.Readings

/-!
# Elements of arrays

Arrays hold arrays, so an element lies at the end of a path of indices. Storing at a path takes the
arrays along it apart from the outside in, and puts them together again from the inside out. All of
that is done by the embedder, one level at a time: for one level it is assumed that an element that
has been stored is read back, and that elements at other keys stay as they were.

Then the same holds at every depth. What is stored at a path is read back along it, and along every
path that goes another way somewhere, what was there before.
-/

namespace ScriptWasm

open Wasm

variable {σ V K : Type}

/-! ## Arrays -/

/-- Two paths part where both go on, but with different keys. -/
def Part (ks js : List K) : Prop :=
  ∃ (n : Nat) (k j : K), ks[n]? = some k ∧ js[n]? = some j ∧ k ≠ j

/-- Arrays among the values that words stand for. An index is taken for a key, so that values of the
same key are the same index. -/
structure Reading.Arrays {e : Embedder σ} (ρ : Reading e V) (b : Bindings) (K : Type) where
  key : V → K
  get : V → K → V
  set : V → K → V → V
  get_set : ∀ c k x, get (set c k x) k = x
  get_set_of_ne : ∀ c k j x, k ≠ j → get (set c k x) j = get c j
  stands_get : ∀ s array index c i, ρ.stands s array c → ρ.stands s index i →
    ρ.sound (e.answer b .getElement [.i32 array, .i32 index] s).2 →
    ρ.stands (e.answer b .getElement [.i32 array, .i32 index] s).2
      (e.answer b .getElement [.i32 array, .i32 index] s).1 (get c (key i))
  stands_set : ∀ s array index value c i x, ρ.stands s array c → ρ.stands s index i →
    ρ.stands s value x →
    ρ.sound (e.answer b .setElement [.i32 array, .i32 index, .i32 value] s).2 →
    ρ.stands (e.answer b .setElement [.i32 array, .i32 index, .i32 value] s).2
      (e.answer b .setElement [.i32 array, .i32 index, .i32 value] s).1 (set c (key i) x)

namespace Reading.Arrays

variable {e : Embedder σ} {ρ : Reading e V} {b : Bindings} (A : ρ.Arrays b K)

/-- What is at the end of a path. -/
def path : V → List K → V := List.foldl A.get

/-- An array with a value at the end of a path. -/
def store : V → List K → V → V
  | _, [], x => x
  | c, k :: ks, x => A.set c k (store (A.get c k) ks x)

theorem path_store (c : V) (ks : List K) (x : V) : A.path (A.store c ks x) ks = x := by
  induction ks generalizing c with
  | nil => rfl
  | cons k ks ih =>
    rw [store, path, List.foldl_cons, A.get_set]
    exact ih _

theorem path_store_of_part (c : V) {ks js : List K} (x : V) (h : Part ks js) :
    A.path (A.store c ks x) js = A.path c js := by
  obtain ⟨n, k, j, hk, hj, hne⟩ := h
  induction ks generalizing c js n with
  | nil => simp at hk
  | cons k' ks ih =>
    obtain _ | ⟨j', js⟩ := js
    · simp at hj
    · rw [store, path, List.foldl_cons, List.foldl_cons]
      by_cases heq : k' = j'
      · -- The paths go the same way here, so they part further down.
        obtain _ | n := n
        · simp only [List.getElem?_cons_zero, Option.some.injEq] at hk hj
          exact absurd (hk.symm.trans (heq.trans hj)) hne
        · rw [← heq, A.get_set]
          exact ih _ n hk hj
      · rw [A.get_set_of_ne _ _ _ _ heq]

end Reading.Arrays

/-! ## Evaluating along a path -/

namespace Meaning

variable {m : Meaning σ}

/-- Expressions are evaluated in order, each of them once, and in between there is nothing but
operations on elements. A result is a word, and the state right after the evaluation. -/
inductive Evaluates (m : Meaning σ) :
    List Expr → List (UInt32 × m.State) → m.State → m.State → Prop
  | nil (s : m.State) : Evaluates m [] [] s s
  | eval {e : Expr} {es : List Expr} {rs : List (UInt32 × m.State)} {s s' : m.State}
    (h : Evaluates m es rs (m.eval e s).2 s') : Evaluates m (e :: es) (m.eval e s :: rs) s s'
  | element {op : Operator} {args : List Value} {es : List Expr} {rs : List (UInt32 × m.State)}
    {s s' : m.State} (hop : op = .getElement ∨ op = .setElement)
    (h : Evaluates m es rs (m.operate op args s).2 s') : Evaluates m es rs s s'

/-- An operation on elements behind everything else. -/
theorem Evaluates.element_last {es : List Expr} {rs : List (UInt32 × m.State)} {s s' : m.State}
    (h : m.Evaluates es rs s s') {op : Operator} (hop : op = .getElement ∨ op = .setElement)
    (args : List Value) : m.Evaluates es rs s (m.operate op args s').2 := by
  induction h with
  | nil s => exact .element hop (.nil _)
  | eval _ ih => exact .eval ih
  | element hop' _ ih => exact .element hop' ih

/-- The results of indices that are followed from an array. -/
def results (m : Meaning σ) : List Expr → UInt32 → m.State → List (UInt32 × m.State)
  | [], _, _ => []
  | e :: rest, v, s =>
    let r := m.eval e s
    let inner := m.operate .getElement [.i32 v, .i32 r.1] r.2
    r :: results m rest inner.1 inner.2

/-- The result of a value that is stored: it is evaluated after the last index. -/
def storedResult (m : Meaning σ) (value : Expr) (indices : List Expr) (array : UInt32)
    (s : m.State) : UInt32 × m.State :=
  m.eval value (((m.results indices array s).getLast?.map Prod.snd).getD s)

theorem evaluates_follow (es : List Expr) (v : UInt32) (s : m.State) :
    m.Evaluates es (m.results es v s) s (m.follow es v s).2 := by
  induction es generalizing v s with
  | nil => exact .nil s
  | cons e rest ih => exact .eval (.element (.inl rfl) (ih _ _))

theorem evaluates_update (value : Expr) {indices : List Expr} (hne : indices ≠ []) (array : UInt32)
    (s : m.State) :
    m.Evaluates (indices ++ [value])
      (m.results indices array s ++ [m.storedResult value indices array s]) s
      (m.update value indices array s).2 := by
  induction indices generalizing array s with
  | nil => exact absurd rfl hne
  | cons first rest ih =>
    cases rest with
    | nil => exact .eval (.eval (.element (.inr rfl) (.nil _)))
    | cons second rest =>
      exact .eval (.element (.inl rfl)
        ((ih (List.cons_ne_nil _ _) _ _).element_last (.inr rfl) _))

end Meaning

/-! ## Values along a path -/

namespace Reading.Arrays

variable {m : Meaning σ} {ρ : Reading m.embedder V} (A : ρ.Arrays m.host.operators K)
  {s : m.State} {array index value : UInt32} {c i x : V}

theorem gives_get (hc : ρ.stands s.host array c) (hi : ρ.stands s.host index i)
    (hs : ρ.sound (m.operate .getElement [.i32 array, .i32 index] s).2.host) :
    ρ.Gives (m.operate .getElement [.i32 array, .i32 index] s) (A.get c (A.key i)) := by
  have hget := A.stands_get s.host array index c i hc hi
  rw [← Meaning.operate_eq_answer] at hget
  exact hget hs

theorem gives_set (hc : ρ.stands s.host array c) (hi : ρ.stands s.host index i)
    (hx : ρ.stands s.host value x)
    (hs : ρ.sound (m.operate .setElement [.i32 array, .i32 index, .i32 value] s).2.host) :
    ρ.Gives (m.operate .setElement [.i32 array, .i32 index, .i32 value] s)
      (A.set c (A.key i) x) := by
  have hset := A.stands_set s.host array index value c i x hc hi hx
  rw [← Meaning.operate_eq_answer] at hset
  exact hset hs

/-- Following indices comes to what is at the end of the path of their keys. -/
theorem gives_follow {es : List Expr} {is : List V} (hc : ρ.stands s.host array c)
    (his : List.Forall₂ ρ.Gives (m.results es array s) is)
    (hs : ρ.sound (m.follow es array s).2.host) :
    ρ.Gives (m.follow es array s) (A.path c (is.map A.key)) := by
  induction es generalizing array s c is with
  | nil =>
    cases his
    exact hc
  | cons e rest ih =>
    obtain _ | ⟨hi, hrest⟩ := his
    let inner := m.operate .getElement [.i32 array, .i32 (m.eval e s).1] (m.eval e s).2
    have hinner : ρ.sound inner.2.host :=
      ρ.sound_of_leads (Meaning.consults_follow rest inner.1 inner.2).leads hs
    have hindex : ρ.sound (m.eval e s).2.host :=
      ρ.sound_of_leads (Meaning.consults_operate _ _ _).leads hinner
    have hc' := ρ.stands_of_leads (Meaning.consults_eval e s).leads hindex hc
    have hrest' := ih (A.gives_get hc' hi hinner) hrest hs
    exact hrest'

/-- Storing a value puts it at the end of the path of the keys of the indices. -/
theorem gives_update {value : Expr} {indices : List Expr} (hne : indices ≠ []) {is : List V}
    (hc : ρ.stands s.host array c) (his : List.Forall₂ ρ.Gives (m.results indices array s) is)
    (hx : ρ.Gives (m.storedResult value indices array s) x)
    (hs : ρ.sound (m.update value indices array s).2.host) :
    ρ.Gives (m.update value indices array s) (A.store c (is.map A.key) x) := by
  induction indices generalizing array s c is with
  | nil => exact absurd rfl hne
  | cons first rest ih =>
    obtain _ | ⟨hi, hrest⟩ := his
    have hfirst := (Meaning.consults_eval first s).leads
    cases rest with
    | nil =>
      -- The value is evaluated after the index, which stands for the same key then.
      obtain _ | _ := hrest
      have hvalue := (Meaning.consults_eval value (m.eval first s).2).leads
      have hsound : ρ.sound (m.eval value (m.eval first s).2).2.host :=
        ρ.sound_of_leads (Meaning.consults_operate _ _ _).leads hs
      exact A.gives_set (ρ.stands_of_leads (hfirst.trans hvalue) hsound hc)
        (ρ.stands_of_leads hvalue hsound hi) hx hs
    | cons second rest =>
      let inner := m.operate .getElement [.i32 array, .i32 (m.eval first s).1] (m.eval first s).2
      have hget : m.embedder.Leads (m.eval first s).2.host inner.2.host :=
        (Meaning.consults_operate _ _ _).leads
      have hupdate := (Meaning.consults_update value (second :: rest) inner.1 inner.2).leads
      -- The array and the index are still what they were when the inner array has been changed.
      have hsound : ρ.sound (m.update value (second :: rest) inner.1 inner.2).2.host :=
        ρ.sound_of_leads (Meaning.consults_operate _ _ _).leads hs
      have hinner : ρ.sound inner.2.host := ρ.sound_of_leads hupdate hsound
      have hc' := ρ.stands_of_leads hfirst (ρ.sound_of_leads hget hinner) hc
      exact A.gives_set (ρ.stands_of_leads (hget.trans hupdate) hsound hc')
        (ρ.stands_of_leads (hget.trans hupdate) hsound hi)
        (ih (List.cons_ne_nil _ _) (A.gives_get hc' hi hinner) hrest hx hsound) hs

end Reading.Arrays

/-! ## The code of stores and of reads -/

/-- Code reads elements of an array. The indices are evaluated in order, no slot is changed, and the
word on the stack stands for what is at the end of the path of the keys. -/
def Reading.Arrays.ReadsAlong {m : Meaning σ} {ρ : Reading m.embedder V}
    (A : ρ.Arrays m.host.operators K) (I : Instance σ) (array : String) (indices : List Expr)
    (code : List Instr) : Prop :=
  ∀ (s : m.State) (ls st : List Value), ∃ r : UInt32 × m.State,
    m.Evaluates indices (m.results indices (m.read array s) s) s r.2 ∧ r.2.slots = s.slots ∧
      I.Runs code ⟨s.world, ls, st⟩ (.done, ⟨r.2.world, ls, .i32 r.1 :: st⟩) ∧
      ∀ c is, ρ.stands s.host (m.read array s) c →
        List.Forall₂ ρ.Gives (m.results indices (m.read array s) s) is → ρ.sound r.2.host →
        ρ.Gives r (A.path c (is.map A.key))

namespace Deployment

variable (d : Deployment σ) {ρ : Reading d.meaning.embedder V}
  (A : ρ.Arrays d.meaning.host.operators K)

theorem readsAlong {array : String} {indices : List Expr}
    (hindices : ∀ i ∈ indices, i ∈ d.program.expressions) {code : List Instr}
    (hcode : d.setting.lowerExpr (.index array indices) = .ok code) :
    A.ReadsAlong d.machine array indices code := by
  intro s ls st
  have hcovers := d.coversExprs hindices
  refine ⟨d.meaning.eval (.index array indices) s, Meaning.evaluates_follow _ _ s,
    (Meaning.consults_follow _ _ s).slots, ?_, fun c is hc his hs ↦ A.gives_follow hc his hs⟩
  exact d.implements.runs_lowerExpr (e := .index array indices) hcovers.admitted
    (d.realizesAll hcovers.demanded) hcode s st

/-- Code that stores elements has a place for the array, and at least one index. -/
theorem store_isProper {array : String} {indices : List Expr} {value : Expr}
    {before after : Locals} {code : List Instr}
    (hcode : d.setting.lowerAssign value (.index array indices) before = .ok (code, after)) :
    d.meaning.slot array < d.meaning.symbols.length ∧ indices ≠ [] := by
  simp only [Setting.lowerAssign, Lowering.bind_eq_ok_iff, Lowering.lift_eq_ok_iff] at hcode
  obtain ⟨i, _, ⟨hi, rfl⟩, whole, _, -, store, _, hstore, -⟩ := hcode
  obtain ⟨rfl, hlt⟩ := d.implements.slot_eq hi
  refine ⟨hlt, ?_⟩
  rintro rfl
  simp [Setting.lowerStore] at hstore

/-- Stores and reads of elements agree at every depth. The code of a store evaluates the indices and
then the value, once each, and changes no slot but the one of the array. Afterwards the array has
the value at the end of the path, and what it had before along every path that parts from it. That
is what code for reading finds: it comes to the end of the path that its own indices give. -/
theorem store_agrees_read {array : String} {indices : List Expr} {value : Expr} {span : Span}
    (hstmt : .assign (.index array indices) value span ∈ d.program.statements) {scope : Scope}
    {before after : Locals} {code : List Instr}
    (hcode : d.setting.lowerStmt scope (.assign (.index array indices) value span) before =
      .ok (code, after)) (s : d.meaning.State) {ls : List Value} (hls : after.length ≤ ls.length)
    (st : List Value) :
    (∃ (s₁ s' : d.meaning.State) (ls' : List Value),
      s' = d.meaning.assign value (.index array indices) s ∧
      d.meaning.Evaluates (indices ++ [value])
        (d.meaning.results indices (d.meaning.read array s) s ++
          [d.meaning.storedResult value indices (d.meaning.read array s) s]) s s₁ ∧
      s'.host = s₁.host ∧ s'.calls = s₁.calls ∧
      (∀ i, i ≠ d.meaning.slot array → s'.slots[i]? = s.slots[i]?) ∧
      d.machine.Runs code ⟨s.world, ls, st⟩ (.done, ⟨s'.world, ls', st⟩) ∧
      Kept before.length ls ls' ∧
      ∀ c is x, ρ.stands s.host (d.meaning.read array s) c →
        List.Forall₂ ρ.Gives (d.meaning.results indices (d.meaning.read array s) s) is →
        ρ.Gives (d.meaning.storedResult value indices (d.meaning.read array s) s) x →
        ρ.sound s'.host →
        ∃ c', ρ.stands s'.host (d.meaning.read array s') c' ∧ A.path c' (is.map A.key) = x ∧
          ∀ js, Part (is.map A.key) js → A.path c' js = A.path c js) ∧
    ∀ js, (∀ j ∈ js, j ∈ d.program.expressions) → ∀ rcode,
      d.setting.lowerExpr (.index array js) = .ok rcode →
      A.ReadsAlong d.machine array js rcode := by
  refine ⟨?_, fun js hjs rcode hrcode ↦ d.readsAlong A hjs hrcode⟩
  obtain ⟨⟨kind, ha⟩, hdemanded⟩ := d.coversStmt hstmt
  have hadmits : d.host.registry.AdmitsAssign value (.index array indices) := ha
  have hassign : d.setting.lowerAssign value (.index array indices) before = .ok (code, after) :=
    hcode
  obtain ⟨hslot, hne⟩ := d.store_isProper hassign
  obtain ⟨ls', hkept, hruns⟩ :=
    d.implements.runs_lowerAssign hadmits (d.realizesAll hdemanded) hassign hls s st
  let u := d.meaning.update value indices (d.meaning.read array s) s
  have hu : d.meaning.Consults s u.2 := Meaning.consults_update _ _ _ s
  refine ⟨u.2, d.meaning.write array u.1 u.2, ls', rfl, Meaning.evaluates_update value hne _ s, rfl,
    rfl, ?_, hruns, hkept, ?_⟩
  · intro i hi
    rw [← hu.slots]
    exact List.getElem?_set_ne (Ne.symm hi)
  · intro c is x hc his hx hs
    refine ⟨A.store c (is.map A.key) x, ?_, A.path_store _ _ _,
      fun js hjs ↦ A.path_store_of_part _ _ hjs⟩
    rw [Meaning.read_write hslot]
    exact A.gives_update hne hc his hx hs

end Deployment

/-! ## Arrays that can be used -/

/-- Arrays of arrays of numbers: there is a number at the end of every path. -/
abbrev Tree : Type := List Nat → Nat

namespace Tree

def leaf (n : Nat) : Tree := fun _ ↦ n

def get (c : Tree) (k : Nat) : Tree := fun ks ↦ c (k :: ks)

def set (c : Tree) (k : Nat) (x : Tree) : Tree
  | [] => c []
  | j :: js => if k = j then x js else c (j :: js)

end Tree

/-- An embedder that notes every value it gives, and gives the position of the note. Numbers are
what their bits say. -/
def Wasm.Embedder.ledger : Embedder (List Tree) where
  call _ args notes :=
    let tree (w : UInt32) : Tree := notes.getD w.toNat (.leaf 0)
    let value : Tree := match args with
      | [.f64 x] => .leaf x.bits.toNat
      | [.i32 c, .i32 i] => (tree c).get (tree i [])
      | [.i32 c, .i32 i, .i32 x] => (tree c).set (tree i []) (tree x)
      | _ => .leaf 0
    ([.i32 (UInt32.ofNat notes.length)], notes ++ [value])

/-- Words are positions of notes, as long as there are enough words for all notes. -/
def Reading.ledger : Reading .ledger Tree where
  stands notes w v := notes[w.toNat]? = some v
  sound notes := notes.length ≤ UInt32.size
  sound_of_call source args notes h := by
    simp only [Embedder.ledger, List.length_append] at h
    omega
  stands_call source args notes w v _ h := by
    obtain ⟨hlt, -⟩ := List.getElem?_eq_some_iff.mp h
    exact (List.getElem?_append_left hlt).trans h

namespace Reading

theorem getD_of_ledger_stands {notes : List Tree} {w : UInt32} {v : Tree}
    (h : ledger.stands notes w v) : notes.getD w.toNat (.leaf 0) = v := by
  rw [List.getD_eq_getElem?_getD, h, Option.getD_some]

theorem ledger_stands_last {notes : List Tree} {v : Tree} (h : ledger.sound (notes ++ [v])) :
    ledger.stands (notes ++ [v]) (UInt32.ofNat notes.length) v := by
  have hlt : notes.length < UInt32.size := by
    simp only [ledger, List.length_append, List.length_singleton] at h
    omega
  simp only [ledger, UInt32.toNat_ofNat_of_lt' hlt]
  exact List.getElem?_concat_length

def Arrays.ledger (b : Bindings) : Reading.ledger.Arrays b Nat where
  key i := i []
  get := Tree.get
  set := Tree.set
  get_set c k x := by
    funext js
    exact if_pos rfl
  get_set_of_ne c k j x hne := by
    funext js
    exact if_neg hne
  stands_get notes array index c i hc hi hs := by
    rw [← getD_of_ledger_stands hc, ← getD_of_ledger_stands hi]
    exact ledger_stands_last hs
  stands_set notes array index value c i x hc hi hx hs := by
    rw [← getD_of_ledger_stands hc, ← getD_of_ledger_stands hi, ← getD_of_ledger_stands hx]
    exact ledger_stands_last hs

end Reading

/-- A number is stored in an array in an array. -/
def Stmt.gridStore : Stmt :=
  .assign (.index "grid" [.number Setting.one, .variable "x"]) (.number .zero) default

def Program.grid : Program := ⟨⟨["grid", "x"]⟩, [.gridStore]⟩

def Deployment.grid : Deployment (List Tree) where
  host := .console
  program := .grid
  source := ""
  runtime := .support
  tables := Program.grid.tablesOn .console
  codes := Program.grid.codesOn .console
  embedder := .ledger
  operators := Bindings.resolve_support
  prepared := rfl
  lowered := rfl
  valid := by decide +kernel
  imported := by decide +kernel
  honored := Embedder.honors_of_words (fun _ _ _ ↦ rfl) (by decide +kernel)

/-- The grid is full of fives, and a zero is stored in it. -/
theorem Deployment.grid_store_agrees_read :
    ∃ (code : List Instr) (after : Locals) (s s' : grid.meaning.State) (ls ls' : List Value)
      (c' : Tree),
      grid.setting.lowerStmt (.top .entry) .gridStore [] = .ok (code, after) ∧
      s.slots = [0, 1] ∧ s.host = [.leaf 5, .leaf 2] ∧
      grid.machine.Runs code ⟨s.world, ls, []⟩ (.done, ⟨s'.world, ls', []⟩) ∧
      Reading.ledger.stands s'.host (grid.meaning.read "grid" s') c' ∧
      (Reading.Arrays.ledger (.usual "runtime")).path c' [Setting.one.bits.toNat, 2] = .leaf 0 ∧
      (Reading.Arrays.ledger (.usual "runtime")).path c' [Setting.one.bits.toNat, 3] = .leaf 5 := by
  have hok : (grid.setting.lowerStmt (.top .entry) .gridStore []).isOk := by decide +kernel
  obtain ⟨⟨code, after⟩, hcode⟩ := exists_of_isOk hok
  have hls : after.length ≤ (List.replicate after.length (Value.i32 0)).length := by
    rw [List.length_replicate]
  let s : grid.meaning.State := ⟨[0, 1], rfl, [.leaf 5, .leaf 2], []⟩
  obtain ⟨⟨s₁, s', ls', rfl, -, -, -, -, hruns, -, hstands⟩, -⟩ := grid.store_agrees_read
    (Reading.Arrays.ledger (.usual "runtime")) (List.mem_singleton.mpr rfl) hcode s hls []
  have hresults : List.Forall₂ Reading.ledger.Gives
      (grid.meaning.results [.number Setting.one, .variable "x"] (grid.meaning.read "grid" s) s)
      [.leaf Setting.one.bits.toNat, .leaf 2] := .cons rfl (.cons rfl .nil)
  have hfew : (grid.meaning.assign (.number .zero)
      (.index "grid" [.number Setting.one, .variable "x"]) s).host.length ≤ UInt32.size := by
    decide +kernel
  obtain ⟨c', hc', hself, hother⟩ := hstands (.leaf 5) _ (.leaf 0) rfl hresults rfl hfew
  exact ⟨code, after, s, _, _, ls', c', hcode, rfl, rfl, hruns, hc', hself,
    hother _ ⟨1, 2, 3, rfl, rfl, by decide⟩⟩

end ScriptWasm
