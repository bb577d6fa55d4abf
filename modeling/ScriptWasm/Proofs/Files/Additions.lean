import ScriptWasm.Proofs.Files.Paths
import ScriptWasm.Proofs.Files.Trees

/-!
# Additions to a tree

When something is added to a tree where nothing was, every path that led to something leads to the
same thing as before. A path that led nowhere may lead somewhere now: to what was added, or through
a directory that was. Behind the path of a directory, names lead to what the directory holds, if
they are names and nothing is too long.
-/

namespace ScriptWasm.FileTree

/-! ## Names in a directory -/

/-- Everything in a tree has a name. -/
def HasNames (t : FileTree) : Prop := ∀ a ∈ t.entries, ∀ n ∈ a.1.getLast?, Path.IsName n

instance (t : FileTree) : Decidable t.HasNames :=
  inferInstanceAs (Decidable (∀ a ∈ t.entries, ∀ n ∈ a.1.getLast?, Path.IsName n))

theorem mem_childNames {t : FileTree} {l : Location} {n : String} :
    n ∈ t.childNames l ↔ ∃ e, (l ++ [n], e) ∈ t.entries := by
  rw [childNames, List.mem_filterMap]
  constructor
  · rintro ⟨⟨k, e⟩, hmem, hname⟩
    dsimp only at hname
    split at hname
    · rename_i n' hlast
      split at hname
      · rename_i hparent
        cases hname
        obtain ⟨parent, rfl⟩ := List.getLast?_eq_some_iff.mp hlast
        rw [List.dropLast_concat] at hparent
        exact ⟨e, hparent ▸ hmem⟩
      · cases hname
    · cases hname
  · rintro ⟨e, hmem⟩
    exact ⟨(l ++ [n], e), hmem, by simp⟩

theorem HasNames.isName {t : FileTree} (h : t.HasNames) {l : Location} {n : String}
    (hn : n ∈ t.childNames l) : Path.IsName n := by
  obtain ⟨e, hmem⟩ := mem_childNames.mp hn
  exact h _ hmem n (by simp)

theorem exists_get?_of_mem_childNames {t : FileTree} {l : Location} {n : String}
    (hn : n ∈ t.childNames l) : ∃ e, t.get? (l ++ [n]) = some e := by
  obtain ⟨e, hmem⟩ := mem_childNames.mp hn
  rw [get?, if_neg (by simp), ← Option.isSome_iff_exists, List.lookup_isSome_iff]
  exact ⟨_, hmem, beq_self_eq_true _⟩

/-! ## Following a name behind a path -/

variable {t t' : FileTree}

theorem follow_append (t : FileTree) (l : Location) (before after : List String) :
    t.follow l (before ++ after) = t.follow l before >>= fun l' ↦ t.follow l' after := by
  induction before generalizing l with
  | nil => rfl
  | cons n before ih =>
    rw [List.cons_append, follow, follow]
    cases t.get? l with
    | none => rfl
    | some e =>
      cases e with
      | file contents => rfl
      | directory =>
        dsimp only
        rw [ih, ih, ih]
        split
        · rfl
        · split
          · rfl
          · split <;> rfl

/-- An empty name at the end leads no further than to a directory. -/
theorem follow_of_append_empty {l d : Location} {names : List String}
    (h : t.follow l (names ++ [""]) = .ok d) : t.follow l names = .ok d := by
  rw [follow_append] at h
  obtain ⟨d', hd', h⟩ := bind_eq_ok_iff.mp h
  rw [follow] at h
  split at h
  · cases h
  · cases h
  · rw [if_pos (.inl rfl)] at h
    cases h
    exact hd'

theorem locate_eq_ok {p : Path} {l : Location} (h : t.locate p = .ok l) :
    p.text ≠ "" ∧ t.follow (if p.isAbsolute then [] else t.working) p.names = .ok l := by
  rw [locate] at h
  split at h
  · cases h
  · split at h
    · cases h
    · rename_i hempty
      split at h
      · cases h
      · exact ⟨hempty, h⟩

/-- A name behind a path that leads to a directory. -/
theorem locate_join {dir : Path} {d : Location} {n : String} (hdir : t.locate dir = .ok d)
    (hd : t.get? d = some .directory) (hn : Path.IsName n) :
    t.locate (dir.join n) =
      if (dir.join n).text.toList.contains '\x00' then .error .nulInName
      else if Path.longest < (dir.join n).text.utf8ByteSize then .error .nameTooLong
      else if Path.longestName < n.utf8ByteSize then .error .nameTooLong
      else .ok (d ++ [n]) := by
  obtain ⟨hempty, hfollow⟩ := locate_eq_ok hdir
  obtain ⟨names, hnames, hdirNames⟩ := hn.names_join hempty
  have hprefix : t.follow (if dir.isAbsolute then [] else t.working) names = .ok d := by
    obtain hsame | hslash := hdirNames
    · exact hsame ▸ hfollow
    · exact follow_of_append_empty (hslash ▸ hfollow)
  rw [locate, if_neg (hn.text_join_ne_empty dir), hn.isAbsolute_join hempty, hnames,
    follow_append, hprefix, ok_bind, follow, hd]
  simp only [hn.ne_empty, hn.ne_current, hn.ne_parent, or_self, if_false]
  rfl

theorem locate_join_eq_ok {dir : Path} {d l : Location} {n : String}
    (hdir : t.locate dir = .ok d) (hd : t.get? d = some .directory) (hn : Path.IsName n)
    (h : t.locate (dir.join n) = .ok l) : l = d ++ [n] := by
  rw [locate_join hdir hd hn] at h
  split at h
  · cases h
  · split at h
    · cases h
    · split at h
      · cases h
      · exact (Except.ok.inj h).symm

/-! ## Adding -/

/-- A file or a directory, with its name and the location that it lies in. -/
structure Addition where
  parent : Location
  name : String
  entry : Entry

def Addition.location (a : Addition) : Location := a.parent ++ [a.name]

/-- The tree with more in it. -/
def add (t : FileTree) (added : List Addition) : FileTree :=
  { t with entries := added.map (fun a ↦ (a.location, a.entry)) ++ t.entries }

/-- Additions with proper names to places where nothing is. -/
def AreNew (t : FileTree) (added : List Addition) : Prop :=
  ∀ a ∈ added, Path.IsName a.name ∧ t.get? a.location = none

instance (t : FileTree) (added : List Addition) : Decidable (t.AreNew added) :=
  inferInstanceAs (Decidable (∀ a ∈ added, Path.IsName a.name ∧ t.get? a.location = none))

variable {added : List Addition}

theorem get?_add (t : FileTree) (added : List Addition) {l : Location} (hl : l ≠ []) :
    (t.add added).get? l =
      ((added.map fun a ↦ (a.location, a.entry)).lookup l).or (t.get? l) := by
  rw [get?, get?, if_neg hl, if_neg hl, add, List.lookup_append]

theorem get?_add_of_some (hnew : t.AreNew added) {l : Location} {e : Entry}
    (h : t.get? l = some e) : (t.add added).get? l = some e := by
  by_cases hl : l = []
  · subst hl
    exact h
  · have hnone : (added.map fun a ↦ (a.location, a.entry)).lookup l = none := by
      refine List.lookup_eq_none_iff.mpr fun k hk ↦ ?_
      obtain ⟨a, ha, rfl⟩ := List.mem_map.mp hk
      refine bne_iff_ne.mpr fun heq ↦ ?_
      rw [heq, (hnew a ha).2] at h
      cases h
    rw [get?_add t added hl, hnone, Option.none_or, h]

theorem KeepsDirectories.add (hnew : t.AreNew added) : t.KeepsDirectories (t.add added) where
  working := rfl
  directory := get?_add_of_some hnew

/-- What a path led to stays there. -/
theorem find_add_of_ok (hnew : t.AreNew added) {p : Path} {e : Entry} (h : t.find p = .ok e) :
    (t.add added).find p = .ok e := by
  obtain ⟨l, hl, he⟩ := find_eq_ok_iff.mp h
  exact find_eq_ok_iff.mpr ⟨l, (KeepsDirectories.add hnew).locate hl, get?_add_of_some hnew he⟩

/-- A directory shows what was added to it and what it showed before. -/
theorem childNames_add (t : FileTree) (added : List Addition) (l : Location) :
    ∃ more, (t.add added).childNames l = more ++ t.childNames l ∧
      ∀ n ∈ more, ∃ a ∈ added, a.location = l ++ [n] := by
  refine ⟨(add ⟨[], t.working⟩ added).childNames l, ?_, ?_⟩
  · rw [childNames, childNames, childNames, add, add, List.append_nil, List.filterMap_append]
  · intro n hn
    obtain ⟨e, he⟩ := mem_childNames.mp hn
    rw [add, List.append_nil] at he
    obtain ⟨a, ha, heq⟩ := List.mem_map.mp he
    exact ⟨a, ha, congrArg Prod.fst heq⟩

/-- What is found at the place of an addition has been added. -/
theorem get?_add_of_mem (t : FileTree) {a : Addition} (ha : a ∈ added) :
    ∃ b ∈ added, b.location = a.location ∧ (t.add added).get? a.location = some b.entry := by
  have hsome : ((added.map fun a ↦ (a.location, a.entry)).lookup a.location).isSome := by
    rw [List.lookup_isSome_iff]
    exact ⟨_, List.mem_map_of_mem ha, beq_self_eq_true _⟩
  obtain ⟨e, he⟩ := Option.isSome_iff_exists.mp hsome
  obtain ⟨before, after, hsplit, -⟩ := List.lookup_eq_some_iff.mp he
  have hmem : (a.location, e) ∈ added.map fun a ↦ (a.location, a.entry) := by
    rw [hsplit]
    exact List.mem_append_right before List.mem_cons_self
  obtain ⟨b, hb, heq⟩ := List.mem_map.mp hmem
  obtain ⟨hlocation, rfl⟩ := Prod.mk.inj heq
  refine ⟨b, hb, hlocation, ?_⟩
  rw [get?_add t added (by simp [Addition.location]), he, Option.some_or]

/-- The names that a directory showed still lead to the same things. -/
theorem find_join_add (hnames : t.HasNames) (hnew : t.AreNew added) {dir : Path} {d : Location}
    {n : String} (hdir : t.locate dir = .ok d) (hd : t.get? d = some .directory)
    (hn : n ∈ t.childNames d) : (t.add added).find (dir.join n) = t.find (dir.join n) := by
  have hname := hnames.isName hn
  obtain ⟨e, he⟩ := exists_get?_of_mem_childNames hn
  have hkeeps := KeepsDirectories.add hnew
  have hlocate : (t.add added).locate (dir.join n) = t.locate (dir.join n) := by
    rw [locate_join hdir hd hname, locate_join (hkeeps.locate hdir) (hkeeps.directory hd) hname]
  rw [find, find, hlocate]
  cases hl : t.locate (dir.join n) with
  | error error => rfl
  | ok l =>
    obtain rfl := locate_join_eq_ok hdir hd hname hl
    rw [ok_bind, ok_bind, he, get?_add_of_some hnew he]

end ScriptWasm.FileTree
