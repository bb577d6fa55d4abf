import ScriptWasm.Proofs.Files.Additions
import ScriptWasm.Proofs.Files.Changes

/-!
# Paths and the locations that they lead to

A location is told by the names on the way to it. Two things about it can be seen from a path
without a look at the tree: the last name of the location is the file name of the path, and all of
its names are names indeed. So a location can be read off from its canonical path, and paths with
different file names never lead to one location.
-/

namespace ScriptWasm

namespace Path

theorem slash_notMem_of_mem_names {p : Path} {n : String} (h : n ∈ p.names) : '/' ∉ n.toList := by
  obtain ⟨piece, hpiece, rfl⟩ := List.mem_map.mp h
  rw [String.toList_ofList]
  exact Text.notMem_of_mem_split hpiece

/-- The components are those of the names that mean something, behind one that is no name. -/
theorem getLast?_of_components {p : Path} {n : String}
    (h : p.components.getLast? = some (.name n)) :
    ((p.names.filter fun n ↦ n ≠ "" && n ≠ ".").map componentOf).getLast? = some (.name n) := by
  have hcons {c : Component} {rest : List Component} (hc : c ≠ .name n)
      (hlast : (c :: rest).getLast? = some (.name n)) : rest.getLast? = some (.name n) := by
    rw [List.getLast?_cons] at hlast
    cases hrest : rest.getLast? with
    | none =>
      rw [hrest] at hlast
      exact absurd (Option.some.inj hlast) hc
    | some c' => rwa [hrest] at hlast
  rw [components] at h
  split at h
  · exact hcons Component.noConfusion h
  · split at h
    · exact hcons Component.noConfusion h
    · exact h

/-- What stands behind the file name of a path means nothing. -/
theorem exists_names_of_fileName? {p : Path} {n : String} (h : p.fileName? = some n) :
    IsName n ∧ ∃ before after, p.names = before ++ n :: after ∧ ∀ m ∈ after, m = "" ∨ m = "." := by
  have hlast : p.components.getLast? = some (.name n) := by
    rw [fileName?] at h
    split at h
    · rename_i m hm
      rw [hm, Option.some.inj h]
    · cases h
  obtain ⟨m, hm, hcomponent⟩ :=
    Option.map_eq_some_iff.mp (List.getLast?_map ▸ getLast?_of_components hlast)
  obtain ⟨hparent, rfl⟩ : m ≠ ".." ∧ m = n := by
    rw [componentOf] at hcomponent
    split at hcomponent
    · cases hcomponent
    · rename_i hparent
      exact ⟨hparent, Component.name.inj hcomponent⟩
  obtain ⟨init, hinit⟩ := List.getLast?_eq_some_iff.mp hm
  obtain ⟨before, rest, hnames, -, hrest⟩ := List.filter_eq_append_iff.mp hinit
  obtain ⟨more, after, rfl, -, hmeans, hafter⟩ := List.filter_eq_cons_iff.mp hrest
  rw [← List.append_assoc] at hnames
  have hslash : '/' ∉ m.toList := slash_notMem_of_mem_names (p := p) (by simp [hnames])
  simp only [Bool.and_eq_true, decide_eq_true_eq] at hmeans
  refine ⟨⟨hmeans.1, hmeans.2, hparent, hslash⟩, before ++ more, after, hnames, fun x hx ↦ ?_⟩
  have hnone := List.filter_eq_nil_iff.mp hafter x hx
  simpa [Classical.or_iff_not_imp_left] using hnone

theorem isName_of_fileName? {p : Path} {n : String} (h : p.fileName? = some n) : IsName n :=
  (exists_names_of_fileName? h).1

end Path

namespace FileTree

variable {t : FileTree}

/-! ## What can happen at a name -/

/-- The three ways to go on at a name: stay, go up, or go down. -/
theorem follow_cons_eq_ok {l l' : Location} {n : String} {rest : List String}
    (h : t.follow l (n :: rest) = .ok l') :
    t.get? l = some .directory ∧
      (((n = "" ∨ n = ".") ∧ t.follow l rest = .ok l') ∨
        (n = ".." ∧ t.follow l.dropLast rest = .ok l') ∨
        (¬(n = "" ∨ n = ".") ∧ n ≠ ".." ∧ t.follow (l ++ [n]) rest = .ok l')) := by
  rw [follow] at h
  split at h
  · cases h
  · cases h
  · rename_i hdirectory
    refine ⟨hdirectory, ?_⟩
    split at h
    · rename_i hstay
      exact .inl ⟨hstay, h⟩
    · rename_i hmove
      split at h
      · rename_i hup
        exact .inr (.inl ⟨hup, h⟩)
      · rename_i hdown
        split at h
        · cases h
        · exact .inr (.inr ⟨hmove, hdown, h⟩)

theorem eq_of_follow_of_stay {l l' : Location} {names : List String}
    (hnames : ∀ m ∈ names, m = "" ∨ m = ".") (h : t.follow l names = .ok l') : l' = l := by
  induction names with
  | nil => exact (Except.ok.inj h).symm
  | cons n rest ih =>
    have hn := hnames n List.mem_cons_self
    obtain ⟨-, ⟨-, h⟩ | ⟨rfl, -⟩ | ⟨hmove, -⟩⟩ := follow_cons_eq_ok h
    · exact ih (fun m hm ↦ hnames m (List.mem_cons_of_mem n hm)) h
    · exact absurd hn (by decide)
    · exact absurd hn hmove

/-- A path leads to something with the file name of the path. -/
theorem getLast?_of_locate {p : Path} {n : String} {l : Location} (hp : p.fileName? = some n)
    (h : t.locate p = .ok l) : l.getLast? = some n := by
  obtain ⟨hname, before, after, hnames, hafter⟩ := Path.exists_names_of_fileName? hp
  obtain ⟨-, hfollow⟩ := locate_eq_ok h
  rw [hnames, follow_append] at hfollow
  obtain ⟨d, -, hfollow⟩ := bind_eq_ok_iff.mp hfollow
  obtain ⟨-, ⟨hstay, -⟩ | ⟨hup, -⟩ | ⟨-, -, hfollow⟩⟩ := follow_cons_eq_ok hfollow
  · exact absurd hstay (not_or.mpr ⟨hname.ne_empty, hname.ne_current⟩)
  · exact absurd hup hname.ne_parent
  · -- Nothing behind the file name leads away from here.
    rw [eq_of_follow_of_stay hafter hfollow, List.getLast?_concat]

/-! ## Canonical paths -/

/-- Every name of a location is a name. -/
def AreNames (l : Location) : Prop := ∀ n ∈ l, Path.IsName n

instance (l : Location) : Decidable (AreNames l) :=
  inferInstanceAs (Decidable (∀ n ∈ l, Path.IsName n))

theorem areNames_of_follow {l l' : Location} {names : List String} (hl : AreNames l)
    (hnames : ∀ n ∈ names, '/' ∉ n.toList) (h : t.follow l names = .ok l') : AreNames l' := by
  induction names generalizing l with
  | nil => exact Except.ok.inj h ▸ hl
  | cons n rest ih =>
    have hrest : ∀ n ∈ rest, '/' ∉ n.toList := fun m hm ↦ hnames m (List.mem_cons_of_mem n hm)
    obtain ⟨-, ⟨-, h⟩ | ⟨-, h⟩ | ⟨hmove, hdown, h⟩⟩ := follow_cons_eq_ok h
    · exact ih hl hrest h
    · exact ih (fun m hm ↦ hl m (List.dropLast_subset l hm)) hrest h
    · refine ih (fun m hm ↦ ?_) hrest h
      rcases List.mem_append.mp hm with hm | hm
      · exact hl m hm
      · obtain rfl := List.mem_singleton.mp hm
        obtain ⟨hempty, hcurrent⟩ := not_or.mp hmove
        exact ⟨hempty, hcurrent, hdown, hnames m List.mem_cons_self⟩

theorem areNames_of_locate (hworking : AreNames t.working) {p : Path} {l : Location}
    (h : t.locate p = .ok l) : AreNames l := by
  obtain ⟨-, hfollow⟩ := locate_eq_ok h
  refine areNames_of_follow ?_ (fun n hn ↦ Path.slash_notMem_of_mem_names hn) hfollow
  split
  · exact fun n hn ↦ absurd hn List.not_mem_nil
  · exact hworking

theorem split_intercalate {l : Location} (hl : AreNames l) (hne : l ≠ []) :
    Text.split '/' ("/".intercalate l).toList = l.map String.toList := by
  have hslash : ("/" : String).toList = ['/'] := rfl
  rw [Text.split_eq_splitOn, String.toList_intercalate, hslash]
  refine List.splitOn_intercalate '/' ?_ (mt List.map_eq_nil_iff.mp hne)
  intro piece hpiece
  obtain ⟨n, hn, rfl⟩ := List.mem_map.mp hpiece
  exact (hl n hn).slash_notMem

theorem names_pathOf {l : Location} (hl : AreNames l) (hne : l ≠ []) :
    (pathOf l).names = "" :: l := by
  have hsplit : Text.split '/' ([] ++ '/' :: ("/".intercalate l).toList) = _ :=
    Text.split_append _ _
  have htext : (pathOf l).text.toList = [] ++ '/' :: ("/".intercalate l).toList := by
    rw [pathOf, String.toList_append]
    rfl
  rw [Path.names, htext, hsplit, split_intercalate hl hne, List.map_append, List.map_map]
  have hid : String.ofList ∘ String.toList = id := funext fun n ↦ String.ofList_toList
  rw [hid, List.map_id]
  rfl

/-- A location can be read off from its canonical path. -/
theorem pathOf_injective {l l' : Location} (hl : AreNames l) (hl' : AreNames l')
    (h : pathOf l = pathOf l') : l = l' := by
  -- The root is written as if it had a name, which is empty.
  have hroot {k : Location} (hk : AreNames k) (h : pathOf [] = pathOf k) : k = [] := by
    refine Classical.byContradiction fun hne ↦ ?_
    have hnames := names_pathOf hk hne
    rw [← h, show (pathOf []).names = ["", ""] from rfl] at hnames
    have hempty : "" ∈ k := (List.cons.inj hnames).2 ▸ List.mem_cons_self
    exact (hk "" hempty).ne_empty rfl
  by_cases hne : l = []
  · subst hne
    exact (hroot hl' h).symm
  · by_cases hne' : l' = []
    · subst hne'
      exact hroot hl h.symm
    · have hnames := names_pathOf hl hne
      rw [h, names_pathOf hl' hne'] at hnames
      exact (List.cons.inj hnames).2.symm

theorem canonical_eq_ok {p q : Path} (h : t.canonical p = .ok q) :
    ∃ l e, t.locate p = .ok l ∧ t.get? l = some e ∧ q = pathOf l := by
  obtain ⟨l, hl, h⟩ := bind_eq_ok_iff.mp h
  split at h
  · rename_i e he
    exact ⟨l, e, hl, he, (Except.ok.inj h).symm⟩
  · cases h

/-! ## Paths to one location -/

/-- Whether two paths lead to one location, where something is or not. -/
def sameLocation (t : FileTree) (p q : Path) : Bool :=
  match t.locate p, t.locate q with
  | .ok l, .ok l' => l = l'
  | _, _ => false

theorem sameLocation_iff {p q : Path} :
    t.sameLocation p q = true ↔ ∃ l, t.locate p = .ok l ∧ t.locate q = .ok l := by
  rw [sameLocation]
  cases t.locate p with
  | error e => simp
  | ok l =>
    cases t.locate q with
    | error e => simp
    | ok l' => simp [eq_comm]

theorem sameLocation_eq_false {p q : Path} {l l' : Location} (h : t.sameLocation p q = false)
    (hp : t.locate p = .ok l) (hq : t.locate q = .ok l') : l ≠ l' := by
  rintro rfl
  exact Bool.false_ne_true (h.symm.trans (sameLocation_iff.mpr ⟨l, hp, hq⟩))

/-! ## Putting a file somewhere -/

/-- A file is no directory, so paths lead where they led. -/
theorem locate_set_file_iff {l l' : Location} (hl : t.get? l ≠ some .directory) (contents : Bytes)
    {p : Path} : (t.set l (.file contents)).locate p = .ok l' ↔ t.locate p = .ok l' := by
  refine ⟨fun h ↦ ?_, fun h ↦ (KeepsDirectories.set_file hl contents).locate h⟩
  have hkeeps : (t.set l (.file contents)).KeepsDirectories t := by
    refine ⟨rfl, fun {k} hk ↦ ?_⟩
    rw [get?_set t (ne_root_of_get?_ne hl)] at hk
    split at hk
    · cases hk
    · exact hk
  exact hkeeps.locate h

theorem sameLocation_set_file {l : Location} (hl : t.get? l ≠ some .directory) (contents : Bytes)
    (p q : Path) : (t.set l (.file contents)).sameLocation p q = t.sameLocation p q := by
  rw [Bool.eq_iff_iff, sameLocation_iff, sameLocation_iff]
  simp only [locate_set_file_iff hl]

/-- A path that does not lead to the file sees what it saw. -/
theorem read_set_file_iff {l : Location} (hl : t.get? l ≠ some .directory) (contents : Bytes)
    {p : Path} (hp : t.locate p ≠ .ok l) {bytes : Bytes} :
    (t.set l (.file contents)).read p = .ok bytes ↔ t.read p = .ok bytes := by
  simp only [read_eq_ok_iff, locate_set_file_iff hl]
  refine exists_congr fun k ↦ and_congr_right fun hk ↦ ?_
  have hne : k ≠ l := fun h ↦ hp (h ▸ hk)
  rw [get?_set t (ne_root_of_get?_ne hl), if_neg hne]

end FileTree

end ScriptWasm
