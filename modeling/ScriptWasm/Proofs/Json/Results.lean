import ScriptWasm.Json.Reader
import ScriptWasm.Proofs.Sequencing

/-!
# What all results of a reader have in common

A reader may be given any bytes. What holds of everything that it can make of them follows from what
holds of its parts: a list is made of what its items are read as, and a record of a blank one and
what is stored into it. So a property that the blank record has and that every part keeps is a
property of every record that is read, in whatever way it was written.
-/

namespace ScriptWasm.Json.Reader

variable {α β σ : Type}

/-- Everything that the reader gives has the property. -/
def Yields (read : Reader α) (P : α → Prop) : Prop :=
  ∀ ⦃levels : Nat⦄ ⦃bytes : Bytes⦄ ⦃a : α⦄ ⦃rest : Bytes⦄,
    read levels bytes = .ok (a, rest) → P a

/-- Storing keeps the property. -/
def Keeps (P : σ → Prop) (store : σ → σ) : Prop := ∀ s, P s → P (store s)

theorem yields_true (read : Reader α) : Yields read fun _ ↦ True := fun _ _ _ _ _ ↦ trivial

theorem yields_map {P : α → Prop} {Q : β → Prop} {read : Reader α} {f : α → β}
    (h : Yields read P) (hf : ∀ a, P a → Q (f a)) : Yields (Source.map f read) Q := by
  intro levels bytes b rest hread
  obtain ⟨⟨a, rest'⟩, ha, heq⟩ := bind_eq_ok_iff.mp hread
  cases heq
  exact hf a (h ha)

theorem bracketed_eq_ok {close : Bytes → Except Fault Bytes} {contents : Reader α} {levels : Nat}
    {opening : UInt8} {bytes rest : Bytes} {a : α}
    (h : bracketed close contents levels opening bytes = .ok (a, rest)) :
    ∃ inner, contents (levels - 1) bytes = .ok (a, inner) := by
  rw [bracketed] at h
  split at h
  · cases h
  · split at h
    · rename_i hcontents
      split at h
      · cases h
        exact ⟨_, hcontents⟩
      · cases h
    · split at h
      · cases h
      · cases h

/-! ## Lists -/

theorem forall_mem_of_items {P : α → Prop} {item : Reader α} (hitem : Yields item P)
    {levels steps : Nat} {done as : List α} {bytes rest : Bytes} (hdone : ∀ a ∈ done, P a)
    (h : items item levels steps done bytes = .ok (as, rest)) : ∀ a ∈ as, P a := by
  induction steps generalizing done bytes with
  | zero => cases h
  | succ steps ih =>
    rw [items] at h
    obtain ⟨⟨next?, rest'⟩, _, h⟩ := bind_eq_ok_iff.mp h
    cases next? with
    | none =>
      cases h
      exact fun a ha ↦ hdone a (List.mem_reverse.mp ha)
    | some front =>
      obtain ⟨⟨a, rest''⟩, ha, h⟩ := bind_eq_ok_iff.mp h
      refine ih ?_ h
      intro b hb
      rcases List.mem_cons.mp hb with rfl | hb
      · exact hitem ha
      · exact hdone b hb

theorem yields_list {P : α → Prop} {item : Reader α} (hitem : Yields item P) :
    Yields (list item) fun as ↦ ∀ a ∈ as, P a := by
  intro levels bytes as rest h
  obtain ⟨⟨b, bytes'⟩, _, h⟩ := bind_eq_ok_iff.mp h
  dsimp only at h
  split at h
  · obtain ⟨inner, hitems⟩ := bracketed_eq_ok h
    exact forall_mem_of_items hitem (fun _ ha ↦ absurd ha List.not_mem_nil) hitems
  · cases h

/-! ## Records -/

section Records

variable {P : σ → Prop} {members : List (Member Reader σ)}

theorem property_of_storeMembers (hmembers : ∀ m ∈ members, Yields m.read (Keeps P))
    {levels steps : Nat} {first : Bool} {seen seen' : List String} {s s' : σ} {bytes rest : Bytes}
    (hs : P s)
    (h : storeMembers members (fun _ ↦ ignored) levels steps first seen s bytes =
      .ok ((s', seen'), rest)) : P s' := by
  induction steps generalizing first seen s bytes with
  | zero => cases h
  | succ steps ih =>
    rw [storeMembers] at h
    obtain ⟨⟨key?, rest'⟩, _, h⟩ := bind_eq_ok_iff.mp h
    cases key? with
    | none =>
      cases h
      exact hs
    | some key =>
      dsimp only at h
      split at h
      · -- a member that nobody asked for changes nothing
        obtain ⟨_, _, h⟩ := bind_eq_ok_iff.mp h
        obtain ⟨⟨store, rest''⟩, hignored, h⟩ := bind_eq_ok_iff.mp h
        obtain ⟨_, _, heq⟩ := bind_eq_ok_iff.mp hignored
        cases heq
        exact ih hs h
      · rename_i m hfind
        split at h
        · cases h
        · obtain ⟨_, _, h⟩ := bind_eq_ok_iff.mp h
          obtain ⟨⟨store, rest''⟩, hstore, h⟩ := bind_eq_ok_iff.mp h
          exact ih (hmembers m (List.mem_of_find?_eq_some hfind) hstore s hs) h

theorem property_of_storeItems {label : String} {count levels position : Nat} {first : Bool}
    (hmembers : ∀ m ∈ members, Yields m.read (Keeps P)) {s s' : σ} {bytes rest : Bytes} (hs : P s)
    (h : storeItems label count levels members position first s bytes = .ok (s', rest)) : P s' := by
  induction members generalizing position first s bytes with
  | nil =>
    cases h
    exact hs
  | cons m members ih =>
    have hrest := fun n hn ↦ hmembers n (List.mem_cons_of_mem m hn)
    rw [storeItems] at h
    obtain ⟨⟨next?, rest'⟩, _, h⟩ := bind_eq_ok_iff.mp h
    cases next? with
    | none =>
      dsimp only at h
      split at h
      · cases h
      · exact ih hrest hs h
    | some front =>
      obtain ⟨⟨store, rest''⟩, hstore, h⟩ := bind_eq_ok_iff.mp h
      exact ih hrest (hmembers m List.mem_cons_self hstore s hs) h

theorem yields_record {label : String} {blank : σ} (hblank : P blank)
    (hmembers : ∀ m ∈ members, Yields m.read (Keeps P)) :
    Yields (record label blank members) P := by
  intro levels bytes s rest h
  obtain ⟨⟨b, bytes'⟩, _, h⟩ := bind_eq_ok_iff.mp h
  dsimp only at h
  split at h
  · obtain ⟨inner, hitems⟩ := bracketed_eq_ok h
    exact property_of_storeItems hmembers hblank hitems
  · split at h
    · obtain ⟨inner, hcontents⟩ := bracketed_eq_ok h
      obtain ⟨⟨⟨s', seen⟩, rest'⟩, hstore, hcontents⟩ := bind_eq_ok_iff.mp hcontents
      have hs' := property_of_storeMembers hmembers hblank hstore
      dsimp only at hcontents
      split at hcontents
      · cases hcontents
      · cases hcontents
        exact hs'
    · cases h

/-! Parts are listed one by one, with what each of them is read as. -/

theorem keeps_nil : ∀ m ∈ ([] : List (Member Reader σ)), Yields m.read (Keeps P) :=
  fun _ hm ↦ absurd hm List.not_mem_nil

theorem keeps_needed {Q : α → Prop} {name : String} {read : Reader α} {store : α → σ → σ}
    (hread : Yields read Q) (hstore : ∀ a, Q a → Keeps P (store a))
    (hrest : ∀ m ∈ members, Yields m.read (Keeps P)) :
    ∀ m ∈ Member.needed name read store :: members, Yields m.read (Keeps P) :=
  List.forall_mem_cons.mpr ⟨yields_map hread hstore, hrest⟩

theorem keeps_defaulted {Q : α → Prop} {name : String} {read : Reader α} {store : α → σ → σ}
    (hread : Yields read Q) (hstore : ∀ a, Q a → Keeps P (store a))
    (hrest : ∀ m ∈ members, Yields m.read (Keeps P)) :
    ∀ m ∈ Member.defaulted name read store :: members, Yields m.read (Keeps P) :=
  List.forall_mem_cons.mpr ⟨yields_map hread hstore, hrest⟩

/-- A part that the property has nothing to do with. -/
theorem keeps_aside {name : String} {read : Reader α} {store : α → σ → σ}
    (hstore : ∀ a, Keeps P (store a)) (hrest : ∀ m ∈ members, Yields m.read (Keeps P)) :
    ∀ m ∈ Member.defaulted name read store :: members, Yields m.read (Keeps P) :=
  keeps_defaulted (yields_true read) (fun a _ ↦ hstore a) hrest

end Records

theorem property_of_run {P : α → Prop} {read : Reader α} (hread : Yields read P) {bytes : Bytes}
    {a : α} (h : run read bytes = .ok a) : P a := by
  obtain ⟨⟨a', rest⟩, ha, h⟩ := bind_eq_ok_iff.mp h
  dsimp only at h
  split at h
  · cases h
    exact hread ha
  · cases h

end ScriptWasm.Json.Reader
