import Mathlib.Data.List.Nodup
import Mathlib.Data.List.Induction

/-!
# Lists

Tables, sections and names are lists, and what is counted, looked up or written of them is counted,
looked up or written item by item. The facts about lists alone that this needs are collected here.
-/

namespace ScriptWasm

variable {α β : Type}

/-! ## Repetitions -/

section EraseDups

variable [BEq α] [LawfulBEq α] {a : α} {l known : List α}

theorem eraseDups_concat_of_mem (h : a ∈ l) : (l ++ [a]).eraseDups = l.eraseDups := by
  simp [List.eraseDups_append, List.removeAll, h]

theorem eraseDups_concat_of_notMem (h : a ∉ l) : (l ++ [a]).eraseDups = l.eraseDups ++ [a] := by
  simp [List.eraseDups_append, List.eraseDups_cons, List.removeAll, h]

theorem nodup_eraseDups (l : List α) : l.eraseDups.Nodup := by
  induction l using List.reverseRecOn with
  | nil => exact List.nodup_nil
  | append_singleton l a ih =>
    by_cases ha : a ∈ l
    · rwa [eraseDups_concat_of_mem ha]
    · rw [eraseDups_concat_of_notMem ha, ← List.concat_eq_append]
      exact ih.concat (mt List.mem_eraseDups.mp ha)

theorem removeAll_concat : (l ++ [a]).removeAll known =
    l.removeAll known ++ [a].removeAll known := by
  simp [List.removeAll]

theorem eraseDups_removeAll_concat_of_mem (h : a ∈ known ++ l) :
    ((l ++ [a]).removeAll known).eraseDups = (l.removeAll known).eraseDups := by
  rw [removeAll_concat]
  by_cases hknown : a ∈ known
  · simp [List.removeAll, hknown]
  · have hl : a ∈ l := (List.mem_append.mp h).resolve_left hknown
    have hkept : [a].removeAll known = [a] := by simp [List.removeAll, hknown]
    rw [hkept]
    exact eraseDups_concat_of_mem (by simpa [List.removeAll] using ⟨hl, hknown⟩)

theorem eraseDups_removeAll_concat_of_notMem (h : a ∉ known ++ l) :
    ((l ++ [a]).removeAll known).eraseDups = (l.removeAll known).eraseDups ++ [a] := by
  obtain ⟨hknown, hl⟩ := not_or.mp fun hor ↦ h (List.mem_append.mpr hor)
  have hkept : [a].removeAll known = [a] := by simp [List.removeAll, hknown]
  rw [removeAll_concat, hkept]
  exact eraseDups_concat_of_notMem fun hmem ↦ hl (List.mem_filter.mp hmem).1

end EraseDups

/-! ## Positions -/

theorem modify_length_append (f : α → α) (a : α) (after before : List α) :
    (before ++ a :: after).modify before.length f = before ++ f a :: after := by
  induction before with
  | nil => rfl
  | cons b before ih => exact congrArg (b :: ·) ih

theorem forall₂_zipIdx {R : α → β → Prop} {l : List α} {l' : List β} (h : List.Forall₂ R l l')
    (n : Nat) : List.Forall₂ (fun a b ↦ R a.1 b.1 ∧ a.2 = b.2) (l.zipIdx n) (l'.zipIdx n) := by
  induction h generalizing n with
  | nil => exact .nil
  | cons hab _ ih => exact .cons ⟨hab, rfl⟩ (ih (n + 1))

/-! ## Looking up -/

theorem lookup_append_of_ne [BEq α] [LawfulBEq α] {front back : List (α × β)} {key : α}
    (h : ∀ e ∈ front, key ≠ e.1) : (front ++ back).lookup key = back.lookup key := by
  have hnone : front.lookup key = none :=
    List.lookup_eq_none_iff.mpr fun e he ↦ bne_iff_ne.mpr (h e he)
  rw [List.lookup_append, hnone, Option.none_or]

/-- A list that is numbered can be looked up by its numbers. -/
theorem lookup_zipIdx {number : Nat → Nat} (hnumber : Function.Injective number) (l : List α)
    (start i : Nat) :
    ((l.zipIdx start).map fun (a, j) ↦ (number j, a)).lookup (number (start + i)) = l[i]? := by
  induction l generalizing start i with
  | nil => rfl
  | cons a rest ih =>
    rw [List.zipIdx_cons, List.map_cons, List.lookup_cons]
    cases i with
    | zero => simp
    | succ i =>
      have hne : (number (start + (i + 1)) == number start) = false := by
        rw [beq_eq_false_iff_ne, hnumber.ne_iff]
        omega
      have hrest := ih (start + 1) i
      rw [Nat.add_right_comm, Nat.add_assoc] at hrest
      simp only [hne, List.getElem?_cons_succ]
      exact hrest

/-! ## Items one after the other -/

/-- Where nothing is written as nothing at all, there are no more items than there is to read. -/
theorem length_le_flatMap {write : α → List β} (hwrite : ∀ a, write a ≠ []) (items : List α) :
    items.length ≤ (items.flatMap write).length := by
  induction items with
  | nil => exact Nat.le_refl 0
  | cons a items ih =>
    have := List.length_pos_iff.mpr (hwrite a)
    rw [List.flatMap_cons, List.length_append, List.length_cons]
    omega

theorem length_flatMap_le {write : α → List β} {bound : Nat}
    (hwrite : ∀ a, (write a).length ≤ bound) (items : List α) :
    (items.flatMap write).length ≤ bound * items.length := by
  induction items with
  | nil => exact Nat.le_refl 0
  | cons a items ih =>
    have := hwrite a
    rw [List.flatMap_cons, List.length_append, List.length_cons, Nat.mul_add_one]
    omega

theorem length_le_of_mem_flatMap (write : α → List β) {items : List α} {a : α} (ha : a ∈ items) :
    (write a).length ≤ (items.flatMap write).length := by
  induction items with
  | nil => cases ha
  | cons b items ih =>
    rw [List.flatMap_cons, List.length_append]
    rcases List.mem_cons.mp ha with rfl | ha
    · exact Nat.le_add_right _ _
    · exact Nat.le_trans (ih ha) (Nat.le_add_left _ _)

end ScriptWasm
