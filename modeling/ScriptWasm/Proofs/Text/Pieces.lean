import ScriptWasm.Text.Split

/-!
# Pieces and separators

Cutting a text at every separator is `List.splitOn`: no piece has a separator in it, and a separator
in a text divides its pieces into those of what stands before and those of what stands behind.
-/

namespace ScriptWasm.Text

variable {separator : Char}

theorem split_cons (c : Char) (cs : List Char) :
    split separator (c :: cs) = pushFront separator c (split separator cs) := rfl

theorem pushFront_separator (pieces : List (List Char)) :
    pushFront separator separator pieces = [] :: pieces := if_pos rfl

theorem pushFront_of_ne {c : Char} (h : c ≠ separator) (piece : List Char)
    (rest : List (List Char)) : pushFront separator c (piece :: rest) = (c :: piece) :: rest :=
  if_neg h

theorem split_eq_splitOn (separator : Char) (cs : List Char) :
    split separator cs = cs.splitOn separator := by
  induction cs with
  | nil => rfl
  | cons c cs ih =>
    obtain ⟨piece, rest, hsplit⟩ := List.exists_cons_of_ne_nil (List.splitOn_ne_nil separator cs)
    rw [split_cons, ih, List.splitOn_cons_eq_if_modifyHead, hsplit]
    by_cases hc : c = separator
    · subst hc
      rw [pushFront_separator, if_pos (beq_self_eq_true _)]
    · rw [pushFront_of_ne hc, if_neg (mt eq_of_beq hc), List.modifyHead_cons]

/-- A separator divides the pieces. -/
theorem split_append (before after : List Char) :
    split separator (before ++ separator :: after) =
      split separator before ++ split separator after := by
  simp only [split_eq_splitOn]
  exact List.splitOn_append_cons_self before after

theorem split_of_notMem {cs : List Char} (h : separator ∉ cs) : split separator cs = [cs] := by
  rw [split_eq_splitOn]
  exact List.splitOn_eq_singleton h

theorem notMem_of_mem_splitOn {cs piece : List Char} (h : piece ∈ cs.splitOn separator) :
    separator ∉ piece := by
  induction cs generalizing piece with
  | nil =>
    rw [List.mem_singleton.mp h]
    exact List.not_mem_nil
  | cons c cs ih =>
    obtain ⟨first, rest, hsplit⟩ := List.exists_cons_of_ne_nil (List.splitOn_ne_nil separator cs)
    rw [List.splitOn_cons_eq_if_modifyHead] at h
    by_cases hc : c = separator
    · rw [if_pos (beq_iff_eq.mpr hc)] at h
      rcases List.mem_cons.mp h with rfl | h
      · exact List.not_mem_nil
      · exact ih h
    · rw [if_neg (mt eq_of_beq hc), hsplit, List.modifyHead_cons] at h
      rw [hsplit] at ih
      rcases List.mem_cons.mp h with rfl | h
      · rw [List.mem_cons, not_or]
        exact ⟨Ne.symm hc, ih List.mem_cons_self⟩
      · exact ih (List.mem_cons_of_mem _ h)

theorem notMem_of_mem_split {cs piece : List Char} (h : piece ∈ split separator cs) :
    separator ∉ piece :=
  notMem_of_mem_splitOn (split_eq_splitOn separator cs ▸ h)

end ScriptWasm.Text
