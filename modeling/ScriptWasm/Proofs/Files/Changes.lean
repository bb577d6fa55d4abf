import ScriptWasm.Proofs.Files.Trees

/-!
# Changes that may fail

A tree answers at once and never fails without a reason. The files of a machine can be seen as such
a tree, but a change of them can fail at any time, and it can leave a part of what it should have
written. `TreeFiles` is what is left to rely on: looking shows the tree and changes nothing, a
change that succeeds is the change of the tree, and a change that fails leaves the tree as it was,
up to the file that was being written.
-/

namespace ScriptWasm

/-- How a change of a tree ends. A failure may come with the contents of the file at `written?`
replaced by anything, if there is such a file. -/
inductive FileTree.Ends (t : FileTree) (change : Except FileError FileTree)
    (written? : Option Path) : Except FileError Unit → FileTree → Prop
  | made {t' : FileTree} (h : change = .ok t') : t.Ends change written? (.ok ()) t'
  | failed (e : FileError) : t.Ends change written? (.error e) t
  | spoiled (e : FileError) {p : Path} {l : Location} (contents : Bytes) (hp : written? = some p)
      (hl : t.target p = .ok l) : t.Ends change written? (.error e) (t.set l (.file contents))

/-- Files that make up a tree without links, and that may refuse any change. -/
class TreeFiles (σ : Type) extends Files (StateM σ) where
  /-- The tree that the files make up. -/
  tree : σ → FileTree
  canonical_apply : ∀ p s, canonical p s = ((tree s).canonical p, s)
  create_ends : ∀ p s,
    (tree s).Ends ((tree s).create p) (some p) (create p s).1 (tree (create p s).2)
  append_ends : ∀ p bytes s,
    (tree s).Ends ((tree s).append p bytes) (some p) (append p bytes s).1
      (tree (append p bytes s).2)
  sync_ends : ∀ p s, (tree s).Ends (.ok (tree s)) none (sync p s).1 (tree (sync p s).2)
  rename_ends : ∀ p q s,
    (tree s).Ends ((tree s).rename p q) none (rename p q s).1 (tree (rename p q s).2)
  remove_ends : ∀ p s,
    (tree s).Ends ((tree s).remove p) none (remove p s).1 (tree (remove p s).2)
  copy_ends : ∀ p q s,
    (tree s).Ends ((tree s).copy p q) (some q) (copy p q s).1 (tree (copy p q s).2)

namespace FileTree

theorem ends_changing (change : FileTree → Except FileError FileTree) (written? : Option Path)
    (t : FileTree) : t.Ends (change t) written? (changing change t).1 (changing change t).2 := by
  rw [changing]
  cases h : change t with
  | error e => exact .failed e
  | ok t' => exact .made rfl

instance : TreeFiles FileTree where
  tree := id
  canonical_apply _ _ := rfl
  create_ends p := ends_changing (·.create p) (some p)
  append_ends p bytes := ends_changing (·.append p bytes) (some p)
  sync_ends _ := ends_changing .ok none
  rename_ends p q := ends_changing (·.rename p q) none
  remove_ends p := ends_changing (·.remove p) none
  copy_ends p q := ends_changing (·.copy p q) (some q)

variable {t t' : FileTree}

/-- A change that succeeds is made. -/
theorem Ends.eq_ok {change : Except FileError FileTree} {written? : Option Path}
    (h : t.Ends change written? (.ok ()) t') : change = .ok t' := by
  cases h with
  | made h => exact h

/-! ## What the changes leave -/

theorem create_eq_ok {p : Path} (h : t.create p = .ok t') :
    ∃ l, t.target p = .ok l ∧ t' = t.set l (.file []) := by
  obtain ⟨l, hl, h⟩ := bind_eq_ok_iff.mp h
  exact ⟨l, hl, (pure_eq_ok_iff.mp h).symm⟩

theorem append_eq_ok {p : Path} {bytes : Bytes} (h : t.append p bytes = .ok t') :
    ∃ l contents, t.locate p = .ok l ∧ t.get? l = some (.file contents) ∧
      t' = t.set l (.file (contents ++ bytes)) := by
  obtain ⟨l, hl, h⟩ := bind_eq_ok_iff.mp h
  split at h
  · cases h
  · cases h
  · rename_i contents hcontents
    cases h
    exact ⟨l, contents, hl, hcontents, rfl⟩

theorem rename_eq_ok {p q : Path} (h : t.rename p q = .ok t') :
    ∃ l e l', t.locate p = .ok l ∧ t.get? l = some e ∧ t.target q = .ok l' ∧
      t' = (t.erase l).set l' e := by
  obtain ⟨l, hl, h⟩ := bind_eq_ok_iff.mp h
  split at h
  · cases h
  · rename_i e he
    obtain ⟨l', hl', h⟩ := bind_eq_ok_iff.mp h
    exact ⟨l, e, l', hl, he, hl', (pure_eq_ok_iff.mp h).symm⟩

theorem copy_eq_ok {p q : Path} (h : t.copy p q = .ok t') :
    ∃ contents l, t.read p = .ok contents ∧ t.target q = .ok l ∧
      t' = t.set l (.file contents) := by
  obtain ⟨contents, hcontents, h⟩ := bind_eq_ok_iff.mp h
  obtain ⟨l, hl, h⟩ := bind_eq_ok_iff.mp h
  exact ⟨contents, l, hcontents, hl, (pure_eq_ok_iff.mp h).symm⟩

/-- Copying leaves the tree as it is, or puts something at the target, whether it succeeds or
not. -/
theorem Ends.copy {p q : Path} {r : Except FileError Unit}
    (h : t.Ends (t.copy p q) (some q) r t') :
    t' = t ∨ ∃ l contents, t.target q = .ok l ∧ t' = t.set l (.file contents) := by
  cases h with
  | made h =>
    obtain ⟨contents, l, -, hl, rfl⟩ := copy_eq_ok h
    exact .inr ⟨l, contents, hl, rfl⟩
  | failed => exact .inl rfl
  | spoiled e contents hp hl =>
    cases hp
    exact .inr ⟨_, contents, hl, rfl⟩

/-! ## Reading what was written -/

theorem locate_set_file {p : Path} {l : Location} (hl : t.target p = .ok l) (contents : Bytes) :
    (t.set l (.file contents)).locate p = .ok l :=
  have ⟨hlocate, hdirectory⟩ := target_eq_ok hl
  (KeepsDirectories.set_file hdirectory contents).locate hlocate

theorem ne_root_of_get?_ne {l : Location} (h : t.get? l ≠ some .directory) : l ≠ [] := by
  rintro rfl
  exact h rfl

theorem read_set_file {p : Path} {l : Location} (hl : t.target p = .ok l) (contents : Bytes) :
    (t.set l (.file contents)).read p = .ok contents := by
  refine read_eq_ok_iff.mpr ⟨l, locate_set_file hl contents, ?_⟩
  rw [get?_set _ (ne_root_of_get?_ne (target_eq_ok hl).2), if_pos rfl]

theorem read_append {p : Path} {contents bytes : Bytes} (hread : t.read p = .ok contents)
    (h : t.append p bytes = .ok t') : t'.read p = .ok (contents ++ bytes) := by
  obtain ⟨l, contents', hl, hget, rfl⟩ := append_eq_ok h
  obtain ⟨k, hk, hget'⟩ := read_eq_ok_iff.mp hread
  obtain rfl : k = l := Except.ok.inj (hk.symm.trans hl)
  obtain rfl : contents' = contents := by simpa [hget] using hget'
  have hfile : t.get? k ≠ some .directory := by simp [hget]
  refine read_eq_ok_iff.mpr ⟨k, (KeepsDirectories.set_file hfile _).locate hk, ?_⟩
  rw [get?_set _ (ne_root_of_get?_ne hfile), if_pos rfl]

/-- A file that is put somewhere else is not seen. -/
theorem read_set_file_of_ne {p q : Path} {l l' : Location} {bytes : Bytes}
    (hread : t.read p = .ok bytes) (hlocate : t.locate p = .ok l) (hl' : t.target q = .ok l')
    (hne : l ≠ l') (contents : Bytes) : (t.set l' (.file contents)).read p = .ok bytes := by
  have hdirectory := (target_eq_ok hl').2
  obtain ⟨k, hk, hget⟩ := read_eq_ok_iff.mp hread
  obtain rfl : k = l := Except.ok.inj (hk.symm.trans hlocate)
  refine read_eq_ok_iff.mpr ⟨k, (KeepsDirectories.set_file hdirectory contents).locate hk, ?_⟩
  rw [get?_set _ (ne_root_of_get?_ne hdirectory), if_neg hne, hget]

/-- What is moved is found where it was moved to. -/
theorem read_rename {p q : Path} {contents : Bytes} (hread : t.read p = .ok contents)
    (h : t.rename p q = .ok t') : t'.read q = .ok contents := by
  obtain ⟨l, e, l', hl, he, hl', rfl⟩ := rename_eq_ok h
  obtain ⟨k, hk, hget⟩ := read_eq_ok_iff.mp hread
  obtain rfl : k = l := Except.ok.inj (hk.symm.trans hl)
  obtain rfl : e = .file contents := Option.some.inj (he.symm.trans hget)
  obtain ⟨hlocate, hdirectory⟩ := target_eq_ok hl'
  -- Taking the file away makes no directory, so the place that it goes to stays free for it.
  have hfile : t.get? k ≠ some .directory := by simp [hget]
  have hfree : (t.erase k).get? l' ≠ some .directory := by
    rw [get?_erase _ (ne_root_of_get?_ne hfile)]
    split
    · nofun
    · exact hdirectory
  have hkeeps := (KeepsDirectories.erase hfile).trans (.set_file hfree contents)
  refine read_eq_ok_iff.mpr ⟨l', hkeeps.locate hlocate, ?_⟩
  rw [get?_set _ (ne_root_of_get?_ne hfree), if_pos rfl]

end FileTree

end ScriptWasm
