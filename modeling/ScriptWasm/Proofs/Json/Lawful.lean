import ScriptWasm.Json.Decoder
import ScriptWasm.Proofs.Json.Written

/-!
# What a source reads

The JSON form of a type is written once for every source, and so is the proof that the form reads
what was written. `LawfulSource` says, for each way of putting forms together, which values it reads
as what; a proof about a form uses these rules only.

The rule for records is about `Fills`: the members of an object are those of the record, in order,
where the ones that may be left out may be missing. A source sees the members one by one and keeps
account of the names it has met. What it does with them is `Stores`, and `Fills.stores` is the step
from the one to the other.
-/

namespace ScriptWasm.Json

variable {R : Type → Type} {σ : Type}

/-! ## Records -/

/-- The entries are those of the members, in order, and filling them in leads from one record to
another. -/
inductive Fills (reads : R (σ → σ) → Value → (σ → σ) → Prop) :
    List (Member R σ) → σ → List (String × Value) → σ → Prop
  | nil {s : σ} : Fills reads [] s [] s
  | given {m : Member R σ} {ms : List (Member R σ)} {s s' : σ} {v : Value} {store : σ → σ}
    {entries : List (String × Value)} (hread : reads m.read v store)
    (hrest : Fills reads ms (store s) entries s') :
    Fills reads (m :: ms) s ((m.name, v) :: entries) s'
  | omitted {m : Member R σ} {ms : List (Member R σ)} {s s' : σ}
    {entries : List (String × Value)} (hdefault : m.required = false)
    (hrest : Fills reads ms s entries s') : Fills reads (m :: ms) s entries s'

/-- Storing the entries one by one leads from one record, with the names met so far, to another. -/
inductive Stores (members : List (Member R σ)) (reads : R (σ → σ) → Value → (σ → σ) → Prop)
    (keeps : String → Value → (σ → σ) → Prop) :
    List String → σ → List (String × Value) → List String → σ → Prop
  | done {seen : List String} {s : σ} : Stores members reads keeps seen s [] seen s
  | member {m : Member R σ} {seen seen' : List String} {s s' : σ} {name : String} {v : Value}
    {store : σ → σ} {entries : List (String × Value)}
    (hfind : members.find? (·.name == name) = some m) (hnew : seen.contains name = false)
    (hread : reads m.read v store)
    (hrest : Stores members reads keeps (name :: seen) (store s) entries seen' s') :
    Stores members reads keeps seen s ((name, v) :: entries) seen' s'
  | other {seen seen' : List String} {s s' : σ} {name : String} {v : Value} {store : σ → σ}
    {entries : List (String × Value)} (hfind : members.find? (·.name == name) = none)
    (hkeep : keeps name v store)
    (hrest : Stores members reads keeps seen (store s) entries seen' s') :
    Stores members reads keeps seen s ((name, v) :: entries) seen' s'

theorem Fills.imp {reads reads' : R (σ → σ) → Value → (σ → σ) → Prop} {ms : List (Member R σ)}
    {s s' : σ} {entries : List (String × Value)} (h : Fills reads ms s entries s')
    (himp : ∀ e ∈ entries, ∀ read store, reads read e.2 store → reads' read e.2 store) :
    Fills reads' ms s entries s' := by
  induction h with
  | nil => exact .nil
  | given hread _ ih =>
    exact .given (himp _ List.mem_cons_self _ _ hread)
      (ih fun e he ↦ himp e (List.mem_cons_of_mem _ he))
  | omitted hdefault _ ih => exact .omitted hdefault (ih himp)

/-- What holds of all values that are read holds of all entries. -/
theorem Fills.forall_entries {reads : R (σ → σ) → Value → (σ → σ) → Prop} {ms : List (Member R σ)}
    {s s' : σ} {entries : List (String × Value)} (h : Fills reads ms s entries s')
    {P : Value → Prop} (hP : ∀ read v store, reads read v store → P v) : ∀ e ∈ entries, P e.2 := by
  induction h with
  | nil =>
    intro e he
    cases he
  | given hread _ ih =>
    intro e he
    rcases List.mem_cons.mp he with rfl | he
    · exact hP _ _ _ hread
    · exact ih e he
  | omitted _ _ ih => exact ih

theorem Stores.append {members : List (Member R σ)} {reads : R (σ → σ) → Value → (σ → σ) → Prop}
    {keeps : String → Value → (σ → σ) → Prop} {seen seen' seen'' : List String} {s s' s'' : σ}
    {entries entries' : List (String × Value)}
    (h : Stores members reads keeps seen s entries seen' s')
    (h' : Stores members reads keeps seen' s' entries' seen'' s'') :
    Stores members reads keeps seen s (entries ++ entries') seen'' s'' := by
  induction h with
  | done => exact h'
  | member hfind hnew hread _ ih => exact .member hfind hnew hread (ih h')
  | other hfind hkeep _ ih => exact .other hfind hkeep (ih h')

theorem find?_name {members : List (Member R σ)} (hnodup : (members.map (·.name)).Nodup)
    {m : Member R σ} (hm : m ∈ members) : members.find? (·.name == m.name) = some m := by
  induction members with
  | nil => cases hm
  | cons n members ih =>
    rw [List.map_cons, List.nodup_cons] at hnodup
    rw [List.find?_cons]
    rcases List.mem_cons.mp hm with rfl | hm
    · rw [beq_self_eq_true]
    · have hne : (n.name == m.name) = false := by
        refine beq_eq_false_iff_ne.mpr fun heq ↦ hnodup.1 ?_
        rw [heq]
        exact List.mem_map_of_mem hm
      rw [hne]
      exact ih hnodup.2 hm

/-- The members that are still to be filled have not been met, so each of them is stored; at the end
every one that is required has been met. -/
theorem Fills.stores_rest {members ms : List (Member R σ)}
    {reads : R (σ → σ) → Value → (σ → σ) → Prop} {s s' : σ} {entries : List (String × Value)}
    (h : Fills reads ms s entries s') (keeps : String → Value → (σ → σ) → Prop)
    (hnodup : (members.map (·.name)).Nodup) (hsub : ms.Sublist members) (seen : List String)
    (hfresh : ∀ m ∈ ms, m.name ∉ seen) :
    ∃ seen', Stores members reads keeps seen s entries seen' s' ∧ seen ⊆ seen' ∧
      ∀ m ∈ ms, m.required = true → m.name ∈ seen' := by
  induction h generalizing seen with
  | nil => exact ⟨seen, .done, List.Subset.refl seen, fun m hm ↦ absurd hm List.not_mem_nil⟩
  | @given m ms s s' v store entries hread _ ih =>
    -- names differ, so that meeting this one leaves the later ones unmet
    have hnames : ((m :: ms).map (·.name)).Nodup := hnodup.sublist (hsub.map _)
    rw [List.map_cons, List.nodup_cons] at hnames
    have hfresh' : ∀ n ∈ ms, n.name ∉ m.name :: seen := by
      intro n hn hmem
      rcases List.mem_cons.mp hmem with heq | hmem
      · exact hnames.1 (heq ▸ List.mem_map_of_mem hn)
      · exact hfresh n (List.mem_cons_of_mem m hn) hmem
    obtain ⟨seen', hstores, hsubset, hrequired⟩ :=
      ih ((List.sublist_cons_self m ms).trans hsub) (m.name :: seen) hfresh'
    have hnew : seen.contains m.name = false := by
      rw [List.contains_eq_mem]
      exact decide_eq_false (hfresh m List.mem_cons_self)
    refine ⟨seen', .member (find?_name hnodup (hsub.mem List.mem_cons_self)) hnew hread hstores,
      fun n hn ↦ hsubset (List.mem_cons_of_mem _ hn), fun n hn hreq ↦ ?_⟩
    rcases List.mem_cons.mp hn with rfl | hn
    · exact hsubset List.mem_cons_self
    · exact hrequired n hn hreq
  | @omitted m ms s s' entries hdefault _ ih =>
    obtain ⟨seen', hstores, hsubset, hrequired⟩ :=
      ih ((List.sublist_cons_self m ms).trans hsub) seen
        fun n hn ↦ hfresh n (List.mem_cons_of_mem m hn)
    refine ⟨seen', hstores, hsubset, fun n hn hreq ↦ ?_⟩
    rcases List.mem_cons.mp hn with rfl | hn
    · rw [hdefault] at hreq
      cases hreq
    · exact hrequired n hn hreq

theorem firstMissing?_eq_none {members : List (Member R σ)} {seen : List String}
    (h : ∀ m ∈ members, m.required = true → m.name ∈ seen) : firstMissing? members seen = none := by
  rw [firstMissing?, Option.map_eq_none_iff, List.find?_eq_none]
  intro m hm hmissing
  obtain ⟨hreq, hunseen⟩ := Bool.and_eq_true_iff.mp hmissing
  rw [List.contains_eq_mem, decide_eq_true (h m hm hreq)] at hunseen
  cases hunseen

theorem Fills.stores {members : List (Member R σ)} {reads : R (σ → σ) → Value → (σ → σ) → Prop}
    {s s' : σ} {entries : List (String × Value)} (h : Fills reads members s entries s')
    (keeps : String → Value → (σ → σ) → Prop) (hnodup : (members.map (·.name)).Nodup) :
    ∃ seen, Stores members reads keeps [] s entries seen s' ∧
      firstMissing? members seen = none := by
  obtain ⟨seen, hstores, _, hrequired⟩ :=
    h.stores_rest keeps hnodup (List.Sublist.refl members) [] fun _ _ ↦ List.not_mem_nil
  exact ⟨seen, hstores, firstMissing?_eq_none hrequired⟩

/-! ### Objects with further members

A source that keeps the members it does not know reads the others into a larger record. -/

section Gathered

variable {τ : Type} {reads : R (σ → σ) → Value → (σ → σ) → Prop}
  {reads' : R (τ → τ) → Value → (τ → τ) → Prop} {lift : Member R σ → Member R τ}

theorem Fills.lifted {ms : List (Member R σ)} {s s' : σ} {entries : List (String × Value)}
    (h : Fills reads ms s entries s') (embed : σ → τ) (hname : ∀ m, (lift m).name = m.name)
    (hrequired : ∀ m, (lift m).required = m.required)
    (hread : ∀ m v store, reads m.read v store →
      ∃ store', reads' (lift m).read v store' ∧ ∀ s, store' (embed s) = embed (store s)) :
    Fills reads' (ms.map lift) (embed s) entries (embed s') := by
  induction h with
  | nil => exact .nil
  | @given m ms s s' v store entries hm _ ih =>
    obtain ⟨store', hm', hstore⟩ := hread m v store hm
    rw [← hname m]
    refine .given hm' ?_
    rw [hstore]
    exact ih
  | omitted hdefault _ ih => exact .omitted ((hrequired _).trans hdefault) ih

theorem firstMissing?_lift (lift : Member R σ → Member R τ) (hname : ∀ m, (lift m).name = m.name)
    (hrequired : ∀ m, (lift m).required = m.required) (members : List (Member R σ))
    (seen : List String) : firstMissing? (members.map lift) seen = firstMissing? members seen := by
  rw [firstMissing?, firstMissing?, List.find?_map, Option.map_map]
  have hpred : (fun m : Member R τ ↦ m.required && !seen.contains m.name) ∘ lift =
      fun m : Member R σ ↦ m.required && !seen.contains m.name := by
    funext m
    simp only [Function.comp_apply, hname, hrequired]
  rw [hpred]
  congr 1
  funext m
  exact hname m

/-- Members that the record does not know are kept, one after the other. -/
theorem stores_others {members : List (Member R σ)} {keeps : String → Value → (σ → σ) → Prop}
    (keep : String → Value → σ → σ) {others : List (String × Value)}
    (hothers : ∀ e ∈ others, e.1 ∉ members.map (·.name) ∧ keeps e.1 e.2 (keep e.1 e.2))
    (seen : List String) (s : σ) :
    Stores members reads keeps seen s others seen (others.foldl (fun s e ↦ keep e.1 e.2 s) s) := by
  induction others generalizing s with
  | nil => exact .done
  | cons e others ih =>
    obtain ⟨hnew, hkeep⟩ := hothers e List.mem_cons_self
    refine .other ?_ hkeep (ih (fun e he ↦ hothers e (List.mem_cons_of_mem _ he)) _)
    rw [List.find?_eq_none]
    intro m hm heq
    exact hnew (List.mem_map.mpr ⟨m, hm, beq_iff_eq.mp heq⟩)

end Gathered

/-! ## The rules -/

/-- A source with a rule for each way of putting forms together. -/
class LawfulSource (R : Type → Type) [Source R] where
  /-- The form reads the value as the given result. -/
  Reads {α : Type} : R α → Value → α → Prop
  isReadable {α : Type} {form : R α} {v : Value} {a : α} : Reads form v a → v.IsReadable
  map {α β : Type} (f : α → β) {form : R α} {v : Value} {a : α} :
    Reads form v a → Reads (Source.map f form) v (f a)
  text (s : String) : Reads Source.text (.string s) s
  boolean (b : Bool) : Reads Source.boolean (.boolean b) b
  double {x : Binary64} : (Number.float x).IsReadable → Reads Source.double (.float x) x
  natural {limit n : Nat} {expected : String} :
    n < limit → n ≤ largestSignificand → Reads (Source.natural limit expected) (.natural n) n
  optional_none {α : Type} (item : R α) : Reads (Source.optional item) .null none
  optional_some {α : Type} {item : R α} {v : Value} {a : α} :
    v ≠ .null → Reads item v a → Reads (Source.optional item) v (some a)
  list {ι α : Type} {item : R α} {is : List ι} {f : ι → Value} {g : ι → α} :
    (∀ i ∈ is, Reads item (f i) (g i)) → Reads (Source.list item) (.array (is.map f)) (is.map g)
  record {σ : Type} {label : String} {blank s : σ} {members : List (Member R σ)}
    {entries : List (String × Value)} :
    (members.map (·.name)).Nodup → Fills Reads members blank entries s →
      Reads (Source.record label blank members) (.object entries) s
  fields {σ : Type} {label : String} {blank s : σ} {members : List (Member R σ)}
    {entries : List (String × Value)} :
    (members.map (·.name)).Nodup → Fills Reads members blank entries s →
      Reads (Source.fields label blank members) (.object entries) s
  gathered {σ α : Type} {label : String} {blank s : σ} {a : α} {members : List (Member R σ)}
    {finish : σ → List (String × Value) → Except Problem α}
    {others entries : List (String × Value)} :
    (members.map (·.name)).Nodup → Fills Reads members blank entries s →
      (∀ e ∈ others, e.1 ∉ members.map (·.name) ∧ e.2.IsReadable) → finish s others = .ok a →
      Reads (Source.gathered label blank members finish) (.object (others ++ entries)) a
  variant_unit {α : Type} {options : List (String × Shape R α)} {name : String} {a : α} :
    options.lookup name = some (.unit a) → Reads (Source.variant options) (.string name) a
  variant_single {α : Type} {options : List (String × Shape R α)} {name : String} {a : α}
    {form : R α} {v : Value} : options.lookup name = some (.single form) → Reads form v a →
      Reads (Source.variant options) (.object [(name, v)]) a
  variant_fields {α : Type} {options : List (String × Shape R α)} {name : String} {a : α}
    {form : R α} {v : Value} : options.lookup name = some (.fields form) → Reads form v a →
      Reads (Source.variant options) (.object [(name, v)]) a

theorem LawfulSource.list_map [Source R] [LawfulSource R] {α : Type} {item : R α} {as : List α}
    {f : α → Value} (h : ∀ a ∈ as, Reads item (f a) a) :
    Reads (Source.list item) (.array (as.map f)) as := by
  have hlist : Reads (Source.list item) (.array (as.map f)) (as.map id) := LawfulSource.list h
  rwa [List.map_id] at hlist

theorem LawfulSource.word32 [Source R] [LawfulSource R] {n : Nat} (h : n < UInt32.size) :
    Reads (Source.word32 : R Nat) (.natural n) n := by
  have hmost : UInt32.size ≤ largestSignificand := by decide
  exact LawfulSource.natural h (by omega)

section Members

variable [Source R] [LawfulSource R] {α : Type} {name : String} {form : R α} {store : α → σ → σ}
  {v : Value} {a : α} {ms : List (Member R σ)} {s s' : σ} {entries : List (String × Value)}

theorem Fills.needed (h : LawfulSource.Reads form v a)
    (hrest : Fills LawfulSource.Reads ms (store a s) entries s') :
    Fills LawfulSource.Reads (.needed name form store :: ms) s ((name, v) :: entries) s' :=
  .given (LawfulSource.map store h) hrest

theorem Fills.defaulted (h : LawfulSource.Reads form v a)
    (hrest : Fills LawfulSource.Reads ms (store a s) entries s') :
    Fills LawfulSource.Reads (.defaulted name form store :: ms) s ((name, v) :: entries) s' :=
  .given (LawfulSource.map store h) hrest

end Members

/-! ## Buffered values -/

namespace Decoder

/-- The decoder gives a result for the value. -/
def Gives {α : Type} (decode : Decoder α) (v : Value) (a : α) : Prop := decode v = .ok a

theorem storeMembers_of_stores {members : List (Member Decoder σ)}
    {other : String → Value → σ → σ} {seen seen' : List String} {s s' : σ}
    {entries : List (String × Value)}
    (h : Stores members Gives (fun name v store ↦ store = other name v) seen s entries seen' s') :
    storeMembers members other seen s entries = .ok (s', seen') := by
  induction h with
  | done => rfl
  | member hfind hnew hread _ ih =>
    rw [storeMembers, hfind]
    simp only [hnew, Bool.false_eq_true, if_false]
    rw [hread, ok_bind]
    exact ih
  | other hfind hkeep _ ih =>
    subst hkeep
    rw [storeMembers, hfind]
    exact ih

theorem ofObject_of_fills {members : List (Member Decoder σ)} {blank s : σ}
    {entries : List (String × Value)} (hnodup : (members.map (·.name)).Nodup)
    (h : Fills Gives members blank entries s) : ofObject blank members entries = .ok s := by
  obtain ⟨seen, hstores, hmissing⟩ := h.stores (fun _ _ store ↦ store = id) hnodup
  rw [ofObject, storeMembers_of_stores hstores, ok_bind]
  simp only [hmissing]

theorem foldl_keep (s : σ) (front others : List (String × Value)) :
    others.foldl (fun s e ↦ keep e.1 e.2 s) (s, front) = (s, front ++ others) := by
  induction others generalizing front with
  | nil => rw [List.append_nil, List.foldl_nil]
  | cons e others ih =>
    rw [List.foldl_cons, keep, ih, List.append_assoc]
    rfl

theorem gathered_of_fills {α : Type} {label : String} {members : List (Member Decoder σ)}
    {blank s : σ} {a : α} {finish : σ → List (String × Value) → Except Problem α}
    {others entries : List (String × Value)} (hnodup : (members.map (·.name)).Nodup)
    (h : Fills Gives members blank entries s) (hothers : ∀ e ∈ others, e.1 ∉ members.map (·.name))
    (hfinish : finish s others = .ok a) :
    gathered label blank members finish (.object (others ++ entries)) = .ok a := by
  have hnames : (members.map lifted).map (·.name) = members.map (·.name) := by
    rw [List.map_map]
    rfl
  -- the members that the record does not know come first, and are kept in order
  have hkept : Stores (members.map lifted) Gives (fun name v store ↦ store = keep name v) []
      (blank, []) others [] (blank, others) := by
    have hfold : others.foldl (fun s e ↦ keep e.1 e.2 s) (blank, []) = (blank, others) :=
      foldl_keep blank [] others
    rw [← hfold]
    exact stores_others keep (fun e he ↦ ⟨hnames ▸ hothers e he, rfl⟩) [] (blank, [])
  have hfills : Fills Gives (members.map lifted) (blank, others) entries (s, others) :=
    h.lifted (·, others) (fun _ ↦ rfl) (fun _ ↦ rfl) fun m v store hread ↦
      ⟨fun s ↦ (store s.1, s.2), congrArg (Except.map _) hread, fun _ ↦ rfl⟩
  obtain ⟨seen, hstored, hmissing⟩ := hfills.stores (fun name v store ↦ store = keep name v)
    (hnames ▸ hnodup)
  have hmissing' : firstMissing? members seen = none :=
    (firstMissing?_lift lifted (fun _ ↦ rfl) (fun _ ↦ rfl) members seen).symm.trans hmissing
  rw [gathered, storeMembers_of_stores (hkept.append hstored), ok_bind]
  simp only [hmissing', hfinish]

theorem select_of_lookup {R : Type → Type} {α : Type} {options : List (String × Shape R α)}
    {name : String} {shape : Shape R α} (h : options.lookup name = some shape) :
    select options name = .ok shape := by
  rw [select, h]

theorem optional_of_ne_null {α : Type} (item : Decoder α) {v : Value} (hv : v ≠ .null) :
    optional item v = (item v).map some := by
  cases v with
  | null => exact absurd rfl hv
  | _ => rfl

theorem variant_object {α : Type} {options : List (String × Shape Decoder α)} {name : String}
    {shape : Shape Decoder α} (h : options.lookup name = some shape) (v : Value) :
    variant options (.object [(name, v)]) = payload shape (some v) := by
  rw [variant, select_of_lookup h, ok_bind]

theorem mapM_map {ι α : Type} {item : Decoder α} {is : List ι} {f : ι → Value} {g : ι → α}
    (h : ∀ i ∈ is, item (f i) = .ok (g i)) : (is.map f).mapM item = .ok (is.map g) := by
  induction is with
  | nil => rfl
  | cons i is ih =>
    rw [List.map_cons, List.mapM_cons, h i List.mem_cons_self, ok_bind,
      ih fun j hj ↦ h j (List.mem_cons_of_mem i hj), ok_bind]
    rfl

instance : LawfulSource Decoder where
  Reads form v a := v.IsReadable ∧ Gives form v a
  isReadable h := h.1
  map f _ _ _ h := ⟨h.1, congrArg (Except.map f) h.2⟩
  text s := ⟨.string s, rfl⟩
  boolean b := ⟨.boolean b, rfl⟩
  double h := ⟨.number h, rfl⟩
  natural := by
    intro limit n expected hlimit hn
    refine ⟨Value.isReadable_natural hn, ?_⟩
    have hfits : (0 : Int) ≤ n ∧ (n : Int) < limit :=
      ⟨Int.natCast_nonneg n, Int.ofNat_lt.mpr hlimit⟩
    exact if_pos hfits
  optional_none _ := ⟨.null, rfl⟩
  optional_some hnull h :=
    ⟨h.1, (optional_of_ne_null _ hnull).trans (congrArg (Except.map some) h.2)⟩
  list h := ⟨.array_map fun i hi ↦ (h i hi).1, mapM_map fun i hi ↦ (h i hi).2⟩
  record hnodup h :=
    ⟨.object (h.forall_entries fun _ _ _ ↦ And.left),
      ofObject_of_fills hnodup (h.imp fun _ _ _ _ ↦ And.right)⟩
  fields hnodup h :=
    ⟨.object (h.forall_entries fun _ _ _ ↦ And.left),
      ofObject_of_fills hnodup (h.imp fun _ _ _ _ ↦ And.right)⟩
  gathered hnodup h hothers hfinish :=
    ⟨.object_append (fun e he ↦ (hothers e he).2) (h.forall_entries fun _ _ _ ↦ And.left),
      gathered_of_fills hnodup (h.imp fun _ _ _ _ ↦ And.right) (fun e he ↦ (hothers e he).1)
        hfinish⟩
  variant_unit hlookup :=
    ⟨.string _, congrArg (· >>= (payload · none)) (select_of_lookup hlookup)⟩
  variant_single hlookup h :=
    ⟨.object_single h.1, (variant_object hlookup _).trans h.2⟩
  variant_fields hlookup h :=
    ⟨.object_single h.1, (variant_object hlookup _).trans h.2⟩

end Decoder

end ScriptWasm.Json
