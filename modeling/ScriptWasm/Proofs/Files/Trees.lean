import ScriptWasm.Files.Tree
import ScriptWasm.Proofs.Sequencing

/-!
# Trees that keep their directories

Where a path leads depends on the directories that it passes, and on nothing else. A tree that has
every directory of another one therefore leads a path to the same location wherever the other one
leads it somewhere, whatever happens to the files. Files come and go through `set` and `erase`, and
neither takes a directory away as long as a file is only put where no directory is.
-/

namespace ScriptWasm.FileTree

variable {t t' t'' : FileTree}

/-! ## Locations -/

theorem lookup_filter_ne (entries : List (Location × Entry)) (l l' : Location) :
    (entries.filter (·.1 ≠ l)).lookup l' = if l' = l then none else entries.lookup l' := by
  induction entries with
  | nil => simp
  | cons e entries ih =>
    obtain ⟨k, v⟩ := e
    by_cases hk : k = l
    · subst hk
      rw [List.filter_cons_of_neg (by simp), ih, List.lookup_cons]
      by_cases hl : l' = k
      · simp [hl]
      · simp [hl, beq_false_of_ne hl]
    · rw [List.filter_cons_of_pos (by simpa using hk), List.lookup_cons, List.lookup_cons, ih]
      by_cases hl : l' = k
      · subst hl
        simp [hk]
      · simp [beq_false_of_ne hl]

theorem get?_erase (t : FileTree) {l : Location} (hl : l ≠ []) (l' : Location) :
    (t.erase l).get? l' = if l' = l then none else t.get? l' := by
  rw [get?, get?]
  by_cases hroot : l' = []
  · subst hroot
    simp [Ne.symm hl]
  · rw [if_neg hroot, if_neg hroot]
    exact lookup_filter_ne t.entries l l'

theorem get?_set (t : FileTree) {l : Location} (hl : l ≠ []) (e : Entry) (l' : Location) :
    (t.set l e).get? l' = if l' = l then some e else t.get? l' := by
  have herase := t.get?_erase hl l'
  rw [get?] at herase ⊢
  by_cases hroot : l' = []
  · subst hroot
    simpa [Ne.symm hl] using herase
  · rw [if_neg hroot] at herase ⊢
    rw [set, List.lookup_cons]
    by_cases hl' : l' = l
    · simp [hl']
    · rw [beq_false_of_ne hl', herase, if_neg hl', if_neg hl']

/-! ## Directories -/

/-- Every directory of a tree is one of another tree, from the same working directory. -/
structure KeepsDirectories (t t' : FileTree) : Prop where
  working : t'.working = t.working
  directory : ∀ {l}, t.get? l = some .directory → t'.get? l = some .directory

namespace KeepsDirectories

theorem trans (h : t.KeepsDirectories t') (h' : t'.KeepsDirectories t'') :
    t.KeepsDirectories t'' where
  working := h'.working.trans h.working
  directory hl := h'.directory (h.directory hl)

theorem set_file {l : Location} (hl : t.get? l ≠ some .directory) (contents : Bytes) :
    t.KeepsDirectories (t.set l (.file contents)) where
  working := rfl
  directory := by
    intro l' hl'
    have hroot : l ≠ [] := fun h ↦ hl (h ▸ rfl)
    have hne : l' ≠ l := fun h ↦ hl (h ▸ hl')
    rw [t.get?_set hroot, if_neg hne]
    exact hl'

theorem erase {l : Location} (hl : t.get? l ≠ some .directory) :
    t.KeepsDirectories (t.erase l) where
  working := rfl
  directory := by
    intro l' hl'
    have hroot : l ≠ [] := fun h ↦ hl (h ▸ rfl)
    have hne : l' ≠ l := fun h ↦ hl (h ▸ hl')
    rw [t.get?_erase hroot, if_neg hne]
    exact hl'

/-- Names that lead somewhere still lead there. -/
theorem follow (h : t.KeepsDirectories t') {l l' : Location} {names : List String}
    (hl : t.follow l names = .ok l') : t'.follow l names = .ok l' := by
  induction names generalizing l with
  | nil => exact hl
  | cons n names ih =>
    rw [FileTree.follow] at hl ⊢
    cases hget : t.get? l with
    | none => simp [hget] at hl
    | some e =>
      cases e with
      | file contents => simp [hget] at hl
      | directory =>
        simp only [hget, h.directory hget] at hl ⊢
        -- The four kinds of names go on from different locations, in both trees alike.
        split
        · rename_i hstay
          exact ih (by simpa only [if_pos hstay] using hl)
        · rename_i hmove
          rw [if_neg hmove] at hl
          split
          · rename_i hup
            exact ih (by simpa only [if_pos hup] using hl)
          · rename_i hdown
            rw [if_neg hdown] at hl
            split
            · rename_i hlong
              simp [if_pos hlong] at hl
            · rename_i hshort
              exact ih (by simpa only [if_neg hshort] using hl)

/-- A path that leads somewhere still leads there. -/
theorem locate (h : t.KeepsDirectories t') {p : Path} {l : Location}
    (hp : t.locate p = .ok l) : t'.locate p = .ok l := by
  rw [FileTree.locate] at hp ⊢
  split
  · simp_all
  · split
    · simp_all
    · split
      · simp_all
      · rename_i hnul hempty hlong
        rw [if_neg hnul, if_neg hempty, if_neg hlong] at hp
        rw [h.working]
        exact h.follow hp

end KeepsDirectories

/-! ## Files -/

theorem target_eq_ok {p : Path} {l : Location} (h : t.target p = .ok l) :
    t.locate p = .ok l ∧ t.get? l ≠ some .directory := by
  rw [target, bind_eq_ok_iff] at h
  obtain ⟨l', hl', h⟩ := h
  split at h
  · cases h
  · cases h
  · split at h
    · cases h
    · rename_i hdirectory
      cases h
      exact ⟨hl', fun hd ↦ hdirectory hd⟩

theorem find_eq_ok_iff {p : Path} {e : Entry} :
    t.find p = .ok e ↔ ∃ l, t.locate p = .ok l ∧ t.get? l = some e := by
  rw [find]
  cases t.locate p with
  | error error => simp [bind, Except.bind]
  | ok l =>
    rw [ok_bind]
    cases hl : t.get? l with
    | none => simp [hl]
    | some e => simp [hl]

theorem read_eq_ok_iff {p : Path} {contents : Bytes} :
    t.read p = .ok contents ↔ ∃ l, t.locate p = .ok l ∧ t.get? l = some (.file contents) := by
  rw [← find_eq_ok_iff, read]
  cases t.find p with
  | error error => simp [bind, Except.bind]
  | ok e => cases e <;> simp

end ScriptWasm.FileTree
