import ScriptWasm.Proofs.Build.Outcome
import ScriptWasm.Proofs.Files.Locations

/-!
# Writing a module all at once

A module is written beside its place first, to a path of which nobody expects anything, and moved in
place when it is complete. Whatever goes wrong before that, and whatever was in the directory, is
seen at that path only: every step changes nothing but what is at the location that the path leads
to. The step that moves the file changes a second location, the one of the module, and it comes
last.

Nothing is promised about the two paths unless they lead to different locations. They do, because
one text is the other with more behind it: up to the last name they go the same way, and whatever
the last name of the one is, that of the other is longer.
-/

namespace ScriptWasm

/-! ## A longer last name -/

theorem Text.exists_split_append {separator : Char} (cs : List Char) {more : List Char}
    (hmore : separator ∉ more) :
    ∃ before last, split separator cs = before ++ [last] ∧
      split separator (cs ++ more) = before ++ [last ++ more] := by
  induction cs with
  | nil => exact ⟨[], [], rfl, split_of_notMem hmore⟩
  | cons c cs ih =>
    obtain ⟨before, last, hcs, hlonger⟩ := ih
    rw [List.cons_append, split_cons, split_cons, hcs, hlonger]
    by_cases hc : c = separator
    · subst hc
      exact ⟨[] :: before, last, pushFront_separator _, pushFront_separator _⟩
    · cases before with
      | nil => exact ⟨[], c :: last, pushFront_of_ne hc _ _, pushFront_of_ne hc _ _⟩
      | cons first before =>
        exact ⟨(c :: first) :: before, last, pushFront_of_ne hc _ _, pushFront_of_ne hc _ _⟩

namespace Path

theorem isAbsolute_append {text : String} (h : text ≠ "") (more : String) :
    (Path.mk (text ++ more)).isAbsolute = (Path.mk text).isAbsolute := by
  obtain ⟨c, cs, hcs⟩ := List.exists_cons_of_ne_nil (l := text.toList) (by simpa using h)
  simp [isAbsolute, hcs]

theorem text_join_partial (p : Path) (name : String) :
    (p.join (name ++ ".partial")).text = (p.join name).text ++ ".partial" := by
  have hsame : (Path.mk (name ++ ".partial")).isAbsolute = (Path.mk name).isAbsolute := by
    by_cases hname : name = ""
    · subst hname
      decide
    · exact isAbsolute_append hname ".partial"
  rw [join, join, hsame]
  split
  · rfl
  · split
    · exact (String.append_assoc ..).symm
    · exact (String.append_assoc ..).symm

/-- Up to the last name the two paths are the same. -/
theorem exists_names_partial (p : Path) (name : String) :
    ∃ before last, (p.join name).names = before ++ [last] ∧
      (p.join (name ++ ".partial")).names = before ++ [last ++ ".partial"] ∧
      IsName (last ++ ".partial") := by
  have hslash : '/' ∉ (".partial" : String).toList := by decide
  obtain ⟨before, last, hshort, hlong⟩ := Text.exists_split_append (p.join name).text.toList hslash
  have hlast : '/' ∉ last := Text.notMem_of_mem_split (hshort ▸ List.mem_concat_self)
  refine ⟨before.map String.ofList, String.ofList last, ?_, ?_, ?_⟩
  · rw [names, hshort, List.map_append, List.map_singleton]
  · rw [names, text_join_partial, String.toList_append, hlong, List.map_append, List.map_singleton,
      String.ofList_append, String.ofList_toList]
  · -- Seven letters and a dot are more than any of the words that are no names.
    have hlength (word : String) (hword : word.length < 8) :
        String.ofList last ++ ".partial" ≠ word := by
      rintro rfl
      have hsuffix : (".partial" : String).length = 8 := by decide
      rw [String.length_append, hsuffix] at hword
      omega
    refine ⟨hlength "" (by decide), hlength "." (by decide), hlength ".." (by decide), ?_⟩
    rw [String.toList_append, String.toList_ofList, List.mem_append, not_or]
    exact ⟨hlast, hslash⟩

end Path

namespace FileTree

variable {t t' t'' : FileTree}

theorem follow_singleton_of_isName {d l : Location} {n : String} (hn : Path.IsName n)
    (h : t.follow d [n] = .ok l) : l = d ++ [n] := by
  obtain ⟨-, ⟨hstay, -⟩ | ⟨hup, -⟩ | ⟨-, -, h⟩⟩ := follow_cons_eq_ok h
  · exact absurd hstay (not_or.mpr ⟨hn.ne_empty, hn.ne_current⟩)
  · exact absurd hup hn.ne_parent
  · exact (Except.ok.inj h).symm

/-- A single name leads nowhere else than to the location itself, the one around it, or one in
it. -/
theorem follow_singleton {d l : Location} {n : String} (h : t.follow d [n] = .ok l) :
    l.length ≤ d.length ∨ l = d ++ [n] := by
  obtain ⟨-, ⟨-, h⟩ | ⟨-, h⟩ | ⟨-, -, h⟩⟩ := follow_cons_eq_ok h
  · exact .inl (Except.ok.inj h ▸ Nat.le_refl _)
  · refine .inl (Except.ok.inj h ▸ ?_)
    rw [List.length_dropLast]
    exact Nat.sub_le _ _
  · exact .inr (Except.ok.inj h).symm

/-- A module and the file that it is written to first are never at one location. -/
theorem locate_partial_ne {directory : Path} {name : String} {l : Location}
    (hpartial : t.locate (directory.join (name ++ ".partial")) = .ok l) :
    t.locate (directory.join name) ≠ .ok l := by
  intro hpath
  obtain ⟨before, last, hnames, hlonger, hlast⟩ := directory.exists_names_partial name
  obtain ⟨hempty, hpath⟩ := locate_eq_ok hpath
  obtain ⟨-, hpartial⟩ := locate_eq_ok hpartial
  have hstart : (directory.join (name ++ ".partial")).isAbsolute =
      (directory.join name).isAbsolute := by
    have htext := directory.text_join_partial name
    generalize directory.join (name ++ ".partial") = q at htext
    obtain ⟨text⟩ := q
    subst htext
    exact Path.isAbsolute_append hempty _
  rw [hnames, follow_append] at hpath
  rw [hlonger, follow_append, hstart] at hpartial
  obtain ⟨d, hd, hpath⟩ := bind_eq_ok_iff.mp hpath
  obtain ⟨d', hd', hpartial⟩ := bind_eq_ok_iff.mp hpartial
  obtain rfl : d = d' := Except.ok.inj (hd.symm.trans hd')
  obtain rfl := follow_singleton_of_isName hlast hpartial
  -- The module is less deep than its unfinished file, or beside it with a shorter name.
  obtain hshort | hsame := follow_singleton hpath
  · rw [List.length_append, List.length_singleton] at hshort
    omega
  · have hlength := congrArg String.length (List.singleton_inj.mp (List.append_cancel_left hsame))
    rw [String.length_append] at hlength
    exact absurd hlength (by simp)

/-! ## What is left alone -/

/-- Every path leads where it led, and the same is found at every location but those that the given
paths lead to. -/
structure SameBeside (t t' : FileTree) (paths : List Path) : Prop where
  locate_iff : ∀ {p l}, t'.locate p = .ok l ↔ t.locate p = .ok l
  get?_eq : ∀ {l}, (∀ p ∈ paths, t.locate p ≠ .ok l) → t'.get? l = t.get? l

theorem locate_erase_iff {l l' : Location} (hl : t.get? l ≠ some .directory) {p : Path} :
    (t.erase l).locate p = .ok l' ↔ t.locate p = .ok l' := by
  refine ⟨fun h ↦ ?_, fun h ↦ (KeepsDirectories.erase hl).locate h⟩
  -- Nothing leads through a file, so with it no directory is gone and none has come.
  have hkeeps : (t.erase l).KeepsDirectories t := by
    refine ⟨rfl, fun {k} hk ↦ ?_⟩
    rw [get?_erase t (ne_root_of_get?_ne hl)] at hk
    split at hk
    · cases hk
    · exact hk
  exact hkeeps.locate h

namespace SameBeside

variable {p q : Path} {paths paths' : List Path} {l : Location}

theorem refl (t : FileTree) (paths : List Path) : t.SameBeside t paths := ⟨Iff.rfl, fun _ ↦ rfl⟩

theorem trans (h : t.SameBeside t' paths) (h' : t'.SameBeside t'' paths) :
    t.SameBeside t'' paths where
  locate_iff := h'.locate_iff.trans h.locate_iff
  get?_eq hl := by
    have hl' := fun p hp hlocate ↦ hl p hp (h.locate_iff.mp hlocate)
    exact (h'.get?_eq hl').trans (h.get?_eq hl)

theorem mono (h : t.SameBeside t' paths) (hsub : paths ⊆ paths') : t.SameBeside t' paths' where
  locate_iff := h.locate_iff
  get?_eq hl := h.get?_eq fun p hp ↦ hl p (hsub hp)

/-- What a path shows stays the same, unless one of the given paths leads to the same location. -/
theorem find_iff (h : t.SameBeside t' paths) {e : Entry}
    (hq : ∀ l, t.locate q = .ok l → ∀ p ∈ paths, t.locate p ≠ .ok l) :
    t'.find q = .ok e ↔ t.find q = .ok e := by
  simp only [find_eq_ok_iff, h.locate_iff]
  refine exists_congr fun l ↦ and_congr_right fun hl ↦ ?_
  rw [h.get?_eq (hq l hl)]

theorem set_file (hp : t.locate p = .ok l) (hl : t.get? l ≠ some .directory) (contents : Bytes) :
    t.SameBeside (t.set l (.file contents)) [p] where
  locate_iff := locate_set_file_iff hl contents
  get?_eq {k} hk := by
    have hne : k ≠ l := fun h ↦ hk p List.mem_cons_self (h ▸ hp)
    rw [get?_set t (ne_root_of_get?_ne hl), if_neg hne]

theorem erase (hp : t.locate p = .ok l) (hl : t.get? l ≠ some .directory) :
    t.SameBeside (t.erase l) [p] where
  locate_iff := locate_erase_iff hl
  get?_eq {k} hk := by
    have hne : k ≠ l := fun h ↦ hk p List.mem_cons_self (h ▸ hp)
    rw [get?_erase t (ne_root_of_get?_ne hl), if_neg hne]

end SameBeside

/-! ## The steps -/

section Steps

variable {p q : Path} {bytes contents : Bytes} {r : Except FileError Unit}

/-- A change that concerns one path leaves everything else alone, also if it fails. -/
theorem Ends.sameBeside {change : Except FileError FileTree} {written? : Option Path}
    (h : t.Ends change written? r t') (hmade : ∀ {t'}, change = .ok t' → t.SameBeside t' [p])
    (hwritten : ∀ q ∈ written?, q = p) : t.SameBeside t' [p] := by
  cases h with
  | made h => exact hmade h
  | failed e => exact .refl t [p]
  | spoiled e contents hq hl =>
    obtain rfl := hwritten _ hq
    obtain ⟨hlocate, hdirectory⟩ := target_eq_ok hl
    exact .set_file hlocate hdirectory contents

theorem Ends.sameBeside_create (h : t.Ends (t.create p) (some p) r t') : t.SameBeside t' [p] := by
  refine h.sameBeside (fun hmade ↦ ?_) fun q hq ↦ (Option.mem_some.mp hq).symm
  obtain ⟨l, hl, rfl⟩ := create_eq_ok hmade
  obtain ⟨hlocate, hdirectory⟩ := target_eq_ok hl
  exact .set_file hlocate hdirectory []

theorem Ends.sameBeside_append (h : t.Ends (t.append p bytes) (some p) r t') :
    t.SameBeside t' [p] := by
  refine h.sameBeside (fun hmade ↦ ?_) fun q hq ↦ (Option.mem_some.mp hq).symm
  obtain ⟨l, contents, hlocate, hget, rfl⟩ := append_eq_ok hmade
  exact .set_file hlocate (by simp [hget]) _

theorem remove_eq_ok (h : t.remove p = .ok t') :
    ∃ l contents, t.locate p = .ok l ∧ t.get? l = some (.file contents) ∧ t' = t.erase l := by
  obtain ⟨l, hl, h⟩ := bind_eq_ok_iff.mp h
  split at h
  · cases h
  · cases h
  · rename_i contents hcontents
    exact ⟨l, contents, hl, hcontents, (Except.ok.inj h).symm⟩

theorem Ends.sameBeside_remove (h : t.Ends (t.remove p) none r t') : t.SameBeside t' [p] := by
  refine h.sameBeside (fun hmade ↦ ?_) fun q hq ↦ absurd hq (Option.not_mem_none q)
  obtain ⟨l, contents, hlocate, hget, rfl⟩ := remove_eq_ok hmade
  exact .erase hlocate (by simp [hget])

/-- A change that writes nothing changes nothing if it fails. -/
theorem Ends.eq_of_error {change : Except FileError FileTree} {e : FileError}
    (h : t.Ends change none (.error e) t') : t' = t := by
  cases h with
  | failed => rfl
  | spoiled _ _ hq => cases hq

/-- A file has been made and is there, and nothing else has happened. -/
structure Underway (t t' : FileTree) (p : Path) : Prop where
  beside : t.SameBeside t' [p]
  there : ∃ contents, t'.read p = .ok contents

theorem Ends.underway (h : t.Ends (t.create p) (some p) (.ok ()) t') : t.Underway t' p where
  beside := h.sameBeside_create
  there := by
    obtain ⟨l, hl, rfl⟩ := create_eq_ok h.eq_ok
    exact ⟨[], read_set_file hl []⟩

/-- A file stays a file, whether bytes are added to it or not. -/
theorem Underway.append (hfile : t.Underway t' p)
    (h : t'.Ends (t'.append p bytes) (some p) r t'') : t.Underway t'' p where
  beside := hfile.beside.trans h.sameBeside_append
  there := by
    obtain ⟨contents, hread⟩ := hfile.there
    cases h with
    | made h => exact ⟨_, read_append hread h⟩
    | failed e => exact ⟨contents, hread⟩
    | spoiled e contents hq hl =>
      obtain rfl := Option.some.inj hq
      exact ⟨contents, read_set_file hl contents⟩

/-- A file that is there can be removed. -/
theorem exists_remove_of_read (hread : t.read p = .ok contents) :
    ∃ left, t.remove p = .ok left := by
  obtain ⟨l, hl, hget⟩ := read_eq_ok_iff.mp hread
  exact ⟨t.erase l, bind_eq_ok_iff.mpr ⟨l, hl, by rw [hget]⟩⟩

theorem find_eq_notFound {l : Location} (hl : t.locate p = .ok l) (hget : t.get? l = none) :
    t.find p = .error .notFound := by
  rw [find, hl, ok_bind, hget]

theorem find_of_remove (h : t.remove p = .ok t') : t'.find p = .error .notFound := by
  obtain ⟨l, contents, hl, hget, rfl⟩ := remove_eq_ok h
  have hfile : t.get? l ≠ some .directory := by simp [hget]
  refine find_eq_notFound ((locate_erase_iff hfile).mpr hl) ?_
  rw [get?_erase t (ne_root_of_get?_ne hfile), if_pos rfl]

/-- A file that is moved is no longer where it was, and no other path than the two is concerned. -/
theorem rename_file (hread : t.read p = .ok contents) (h : t.rename p q = .ok t')
    (hne : ∀ l, t.locate p = .ok l → t.locate q ≠ .ok l) :
    t'.find p = .error .notFound ∧ t.SameBeside t' [q, p] := by
  obtain ⟨l, e, l', hl, he, hl', rfl⟩ := rename_eq_ok h
  obtain ⟨k, hk, hget⟩ := read_eq_ok_iff.mp hread
  obtain rfl : k = l := Except.ok.inj (hk.symm.trans hl)
  obtain rfl : e = .file contents := Option.some.inj (he.symm.trans hget)
  obtain ⟨hplace, hfree⟩ := target_eq_ok hl'
  have hfile : t.get? k ≠ some .directory := by simp [hget]
  have haway : k ≠ l' := fun heq ↦ hne k hk (heq ▸ hplace)
  have htaken : t.SameBeside (t.erase k) [p] := .erase hk hfile
  -- Taking the file away leaves the place that it goes to as it was.
  have hfree' : (t.erase k).get? l' ≠ some .directory := by
    rwa [get?_erase t (ne_root_of_get?_ne hfile), if_neg haway.symm]
  have hput : (t.erase k).SameBeside ((t.erase k).set l' (.file contents)) [q] :=
    .set_file (htaken.locate_iff.mpr hplace) hfree' contents
  have hmoved : t.SameBeside ((t.erase k).set l' (.file contents)) [q, p] :=
    (htaken.mono (by simp)).trans (hput.mono (by simp))
  refine ⟨find_eq_notFound (hmoved.locate_iff.mpr hk) ?_, hmoved⟩
  rw [get?_set _ (ne_root_of_get?_ne hfree'), if_neg haway,
    get?_erase t (ne_root_of_get?_ne hfile), if_pos rfl]

end Steps

end FileTree

/-! ## Writing -/

section Writing

variable {m : Type → Type} [Monad m] [Files m]

/-- The steps of writing a file, up to the first that fails. -/
def writingSteps (path partialPath : Path) (bytes : Bytes) : m (Except FileError Unit) :=
  andThen (Files.create partialPath) <| andThen (Files.append partialPath bytes) <|
    andThen (Files.sync partialPath) (Files.rename partialPath path)

/-- Nothing at all is done for a program that cannot be emitted. -/
theorem emitModule_of_error {host : Host} {p : Program} {source : String} {e : EmitError}
    (h : host.assemble p source = .error e) (outputName : String) (directory : Path) :
    (emitModule host p source outputName directory : m _) = pure (.error (.emission e)) := by
  rw [emitModule, h]

end Writing

theorem andThen_eq_error {σ : Type} {s s' : σ} {x y : StateM σ (Except FileError Unit)}
    {e : FileError} (h : andThen x y s = (.error e, s')) :
    x s = (.error e, s') ∨ ∃ s₁, x s = (.ok (), s₁) ∧ y s₁ = (.error e, s') := by
  rw [andThen, stateM_bind_apply] at h
  cases hx : x s with
  | mk r s₁ =>
    rw [hx] at h
    cases r with
    | error e' =>
      cases h
      exact .inl rfl
    | ok => exact .inr ⟨s₁, rfl, h⟩

section TreeFiles

variable {σ : Type} [TreeFiles σ] {s s' : σ} {path partialPath : Path} {bytes : Bytes}

open TreeFiles FileTree

/-! Each step ends as the change of the tree that it stands for. -/

theorem create_apply {r : Except FileError Unit}
    (h : (Files.create partialPath : StateM σ _) s = (r, s')) :
    (tree s).Ends ((tree s).create partialPath) (some partialPath) r (tree s') := by
  have hends := create_ends partialPath s
  rwa [h] at hends

theorem append_apply {r : Except FileError Unit}
    (h : (Files.append partialPath bytes : StateM σ _) s = (r, s')) :
    (tree s).Ends ((tree s).append partialPath bytes) (some partialPath) r (tree s') := by
  have hends := append_ends partialPath bytes s
  rwa [h] at hends

theorem sync_apply {r : Except FileError Unit}
    (h : (Files.sync partialPath : StateM σ _) s = (r, s')) : tree s' = tree s := by
  have hends := sync_ends partialPath s
  rw [h] at hends
  cases r with
  | error e => exact hends.eq_of_error
  | ok => exact (Except.ok.inj hends.eq_ok).symm

theorem rename_apply {r : Except FileError Unit}
    (h : (Files.rename partialPath path : StateM σ _) s = (r, s')) :
    (tree s).Ends ((tree s).rename partialPath path) none r (tree s') := by
  have hends := rename_ends partialPath path s
  rwa [h] at hends

/-- When the steps stop early, nothing has happened beside the file that is not yet complete, which
is there if it could be made. -/
theorem writingSteps_eq_error {e : FileError}
    (h : (writingSteps path partialPath bytes : StateM σ _) s = (.error e, s')) :
    (tree s).SameBeside (tree s') [partialPath] ∧
      (((Files.create partialPath : StateM σ _) s).1.isOk = true →
        ∃ contents, (tree s').read partialPath = .ok contents) := by
  obtain hcreate | ⟨s₁, hcreate, h⟩ := andThen_eq_error h
  · rw [hcreate]
    exact ⟨(create_apply hcreate).sameBeside_create, fun h ↦ absurd h Bool.false_ne_true⟩
  · -- From here on the unfinished file is there, whichever of the other steps fails.
    suffices hfile : (tree s).Underway (tree s') partialPath from
      ⟨hfile.beside, fun _ ↦ hfile.there⟩
    have hmade := (create_apply hcreate).underway
    obtain happend | ⟨s₂, happend, h⟩ := andThen_eq_error h
    · exact hmade.append (append_apply happend)
    · have hadded := hmade.append (append_apply happend)
      obtain hsync | ⟨s₃, hsync, hrename⟩ := andThen_eq_error h
      · exact sync_apply hsync ▸ hadded
      · rw [(rename_apply hrename).eq_of_error, sync_apply hsync]
        exact hadded

/-- When all steps succeed, the file is complete in its place, and gone from where it was
written. -/
theorem writingSteps_eq_ok (h : (writingSteps path partialPath bytes : StateM σ _) s = (.ok (), s'))
    (hne : ∀ {t : FileTree} {l}, t.locate partialPath = .ok l → t.locate path ≠ .ok l) :
    (tree s').find partialPath = .error .notFound ∧
      (tree s).SameBeside (tree s') [path, partialPath] := by
  obtain ⟨s₁, hcreate, h⟩ := andThen_eq_ok h
  obtain ⟨s₂, happend, h⟩ := andThen_eq_ok h
  obtain ⟨s₃, hsync, hrename⟩ := andThen_eq_ok h
  have hadded := (create_apply hcreate).underway.append (append_apply happend)
  rw [← sync_apply hsync] at hadded
  obtain ⟨contents, hread⟩ := hadded.there
  obtain ⟨hgone, hbeside⟩ := rename_file hread (rename_apply hrename).eq_ok fun l hl ↦ hne hl
  exact ⟨hgone, (hadded.beside.mono (by simp)).trans hbeside⟩

/-- A module that is not written has its unfinished file removed. -/
theorem writeModule_eq_error {directory : Path} {fileName : String} {e : BuildError}
    (h : (writeModule directory fileName bytes : StateM σ _) s = (.error e, s')) :
    ∃ e' s₁, (writingSteps (directory.join fileName)
        (directory.join (fileName ++ ".partial")) bytes : StateM σ _) s = (.error e', s₁) ∧
      s' = ((Files.remove (directory.join (fileName ++ ".partial")) : StateM σ _) s₁).2 := by
  rw [writeModule, stateM_bind_apply, writeWhole, stateM_bind_apply] at h
  rw [writingSteps]
  generalize (andThen _ _ : StateM σ (Except FileError Unit)) s = steps at h ⊢
  obtain ⟨r, s₁⟩ := steps
  cases r with
  | error e' => exact ⟨e', s₁, rfl, (Prod.mk.inj h).2.symm⟩
  | ok => cases h

theorem writeModule_eq_ok {directory p : Path} {fileName : String}
    (h : (writeModule directory fileName bytes : StateM σ _) s = (.ok p, s')) :
    (writingSteps (directory.join fileName) (directory.join (fileName ++ ".partial")) bytes :
      StateM σ _) s = (.ok (), s') := by
  rw [writeModule, stateM_bind_apply, writeWhole, stateM_bind_apply] at h
  rw [writingSteps]
  generalize (andThen _ _ : StateM σ (Except FileError Unit)) s = steps at h ⊢
  obtain ⟨r, s₁⟩ := steps
  cases r with
  | error e' => cases h
  | ok =>
    cases h
    rfl

/-- **Writing a module is all or nothing**, on any files without links of which every change may
fail at any time, and whatever was there before. If it fails, nothing has changed at the place of
the module or anywhere else than at the path with `.partial` behind it, and nothing is there if it
was made and then removed; removing it is possible, so that only the machine can refuse it. If it
succeeds, the module is in its place, nothing is at the other path, and nothing else has changed. A
program that cannot be emitted does not touch the files at all. -/
theorem writeModule_all_or_nothing (directory : Path) (fileName : String) (bytes : Bytes) (s : σ) :
    let path := directory.join fileName
    let partialPath := directory.join (fileName ++ ".partial")
    let created := (Files.create partialPath : StateM σ _) s
    let stopped := (writingSteps path partialPath bytes : StateM σ _) s
    let removed := (Files.remove partialPath : StateM σ _) stopped.2
    let written := (writeModule directory fileName bytes : StateM σ _) s
    (∀ e, written.1 = .error e →
      (tree s).SameBeside (tree written.2) [partialPath] ∧
      (∀ entry, (tree written.2).find path = .ok entry ↔ (tree s).find path = .ok entry) ∧
      (created.1.isOk = true →
        (∃ left, (tree stopped.2).remove partialPath = .ok left) ∧
        (removed.1.isOk = true → (tree written.2).find partialPath = .error .notFound))) ∧
    (∀ p, written.1 = .ok p →
      p = path ∧ (tree written.2).read path = .ok bytes ∧
      (tree written.2).find partialPath = .error .notFound ∧
      (tree s).SameBeside (tree written.2) [path, partialPath]) ∧
    ∀ {m : Type → Type} [Monad m] [Files m] (host : Host) (p : Program)
      (source outputName : String) (e : EmitError), host.assemble p source = .error e →
      (emitModule host p source outputName directory : m _) = pure (.error (.emission e)) := by
  intro path partialPath created stopped removed written
  have hne {t : FileTree} {l : Location} : t.locate partialPath = .ok l → t.locate path ≠ .ok l :=
    locate_partial_ne
  refine ⟨fun e he ↦ ?_, fun p hp ↦ ?_, fun host p source outputName e he ↦
    emitModule_of_error he outputName directory⟩
  · -- The steps have stopped, and then the unfinished file was removed, or could not be.
    obtain ⟨e', s₁, hstopped, hwritten⟩ := writeModule_eq_error (Prod.ext he rfl : written = (_, _))
    obtain ⟨hbefore, hthere⟩ := writingSteps_eq_error hstopped
    obtain rfl : s₁ = stopped.2 := (congrArg Prod.snd hstopped).symm
    change written.2 = removed.2 at hwritten
    have hremoved : (tree stopped.2).Ends _ none removed.1 (tree removed.2) :=
      remove_ends partialPath stopped.2
    have hbeside := hbefore.trans hremoved.sameBeside_remove
    rw [hwritten]
    refine ⟨hbeside, fun entry ↦ hbeside.find_iff fun l hl q hq ↦ ?_, fun hcreated ↦ ⟨?_, ?_⟩⟩
    · rw [List.mem_singleton.mp hq]
      exact fun hlocate ↦ hne hlocate hl
    · obtain ⟨contents, hread⟩ := hthere hcreated
      exact exists_remove_of_read hread
    · intro hok
      obtain ⟨_, hok⟩ := exists_of_isOk hok
      rw [hok] at hremoved
      exact find_of_remove hremoved.eq_ok
  · have hwritten : written = (.ok p, written.2) := Prod.ext hp rfl
    obtain ⟨rfl, hread⟩ := read_writeModule hwritten
    obtain ⟨hgone, hbeside⟩ := writingSteps_eq_ok (writeModule_eq_ok hwritten) hne
    exact ⟨rfl, hread, hgone, hbeside⟩

end TreeFiles

/-! ## Files that refuse -/

theorem exists_error_of_isOk {ε α : Type} {x : Except ε α} (h : x.isOk = false) :
    ∃ e, x = .error e := by
  cases x with
  | error e => exact ⟨e, rfl⟩
  | ok a => cases h

theorem ok_of_toOption {ε α : Type} {x : Except ε α} {a : α} (h : x.toOption = some a) :
    x = .ok a := by
  cases x with
  | error e => cases h
  | ok b => exact congrArg Except.ok (Option.some.inj h)

/-- Files that refuse some changes, and are left with half of the bytes when they refuse to take
them. -/
structure RefusingFiles where
  files : FileTree
  /-- Whether the next changes are refused, in order; no further ones are. -/
  refusals : List Bool

namespace RefusingFiles

open TreeFiles

def noSpace : FileError := .other "No space left on device (os error 28)"

/-- Makes a change, unless it is refused. -/
def changing (change refused : FileTree → Except FileError FileTree) :
    StateM RefusingFiles (Except FileError Unit) := fun s ↦
  if s.refusals.headD false then
    (.error noSpace, ⟨(refused s.files).toOption.getD s.files, s.refusals.tail⟩)
  else
    let (r, files) := FileTree.changing change s.files
    (r, ⟨files, s.refusals.tail⟩)

/-- The first half of some bytes in place of a file. -/
def half (p : Path) (bytes : Bytes) (t : FileTree) : Except FileError FileTree := do
  return t.set (← t.target p) (.file (bytes.take (bytes.length / 2)))

theorem ends_changing (change refused : FileTree → Except FileError FileTree)
    (written? : Option Path) (s : RefusingFiles)
    (hrefused : ∀ t', refused s.files = .ok t' → s.files.Ends (change s.files) written?
      (.error noSpace) t') :
    s.files.Ends (change s.files) written? (changing change refused s).1
      (changing change refused s).2.files := by
  rw [changing]
  split
  · cases h : refused s.files with
    | error e => exact .failed _
    | ok t' => exact hrefused t' h
  · exact FileTree.ends_changing change written? s.files

theorem ends_of_half {p : Path} {bytes : Bytes} {t t' : FileTree}
    {change : Except FileError FileTree} (h : half p bytes t = .ok t') :
    t.Ends change (some p) (.error noSpace) t' := by
  obtain ⟨l, hl, h⟩ := bind_eq_ok_iff.mp h
  obtain rfl := pure_eq_ok_iff.mp h
  exact .spoiled _ _ rfl hl

instance : TreeFiles RefusingFiles where
  tree := files
  read p s := (s.files.read p, s)
  list p s := (s.files.list p, s)
  isFile p s := (s.files.isFile p, s)
  canonical p s := (s.files.canonical p, s)
  create p := changing (·.create p) .ok
  append p bytes := changing (·.append p bytes) (half p bytes)
  sync _ := changing .ok .ok
  rename p q := changing (·.rename p q) .ok
  remove p := changing (·.remove p) .ok
  copy p q := changing (·.copy p q) .ok
  canonical_apply _ _ := rfl
  create_ends p s := ends_changing (·.create p) .ok (some p) s fun _ h ↦ Except.ok.inj h ▸ .failed _
  append_ends p bytes s :=
    ends_changing (·.append p bytes) (half p bytes) (some p) s fun _ h ↦ ends_of_half h
  sync_ends _ s := ends_changing .ok .ok none s fun _ h ↦ Except.ok.inj h ▸ .failed _
  rename_ends p q s := ends_changing (·.rename p q) .ok none s fun _ h ↦ Except.ok.inj h ▸ .failed _
  remove_ends p s := ends_changing (·.remove p) .ok none s fun _ h ↦ Except.ok.inj h ▸ .failed _
  copy_ends p q s := ends_changing (·.copy p q) .ok (some q) s fun _ h ↦ Except.ok.inj h ▸ .failed _

/-- A module, and what is left of an attempt to write it again. -/
def littered : FileTree where
  entries :=
    [(["out"], .directory), (["out", "m.wasm"], .file [7]), (["out", "m.wasm.partial"], .file [8])]
  working := []

/-- A program that calls a subroutine which it does not declare. -/
def unresolved : Program := ⟨.empty, [.callSub "f" .unknown]⟩

/-- The files refuse half of the module in the one case and nothing in the other. -/
theorem writeModule_littered :
    let refusing : RefusingFiles := ⟨littered, [false, true]⟩
    let willing : RefusingFiles := ⟨littered, []⟩
    let host : Host := ⟨.empty, .usual "runtime"⟩
    let path := Path.join ⟨"out"⟩ "m.wasm"
    let partialPath := Path.join ⟨"out"⟩ ("m.wasm" ++ ".partial")
    let write : StateM RefusingFiles _ := writeModule ⟨"out"⟩ "m.wasm" [1, 2, 3, 4]
    ((∃ e, (write refusing).1 = .error e) ∧
      (tree refusing).SameBeside (tree (write refusing).2) [partialPath] ∧
      (tree (write refusing).2).find path = .ok (.file [7]) ∧
      (tree (write refusing).2).find partialPath = .error .notFound) ∧
    ((∃ p, (write willing).1 = .ok p) ∧
      (tree (write willing).2).read path = .ok [1, 2, 3, 4] ∧
      (tree (write willing).2).find partialPath = .error .notFound ∧
      (tree willing).SameBeside (tree (write willing).2) [path, partialPath]) ∧
    ∃ e, host.assemble unresolved "" = .error e ∧
      (emitModule host unresolved "" "m" ⟨"out"⟩ : StateM RefusingFiles _) =
        pure (.error (.emission e)) := by
  intro refusing willing host path partialPath write
  obtain ⟨hfails, -, -⟩ := writeModule_all_or_nothing ⟨"out"⟩ "m.wasm" [1, 2, 3, 4] refusing
  obtain ⟨-, hmakes, hemits⟩ := writeModule_all_or_nothing ⟨"out"⟩ "m.wasm" [1, 2, 3, 4] willing
  obtain ⟨e, he⟩ := exists_error_of_isOk (x := (write refusing).1) (by decide +kernel)
  obtain ⟨p, hp⟩ := exists_of_isOk (x := (write willing).1) (by decide +kernel)
  obtain ⟨e', he'⟩ := exists_error_of_isOk (x := host.assemble unresolved "") (by decide +kernel)
  obtain ⟨hbeside, hplace, hpartial⟩ := hfails e he
  obtain ⟨-, hread, hgone, hbeside'⟩ := hmakes p hp
  have hbefore : ((tree refusing).find path).toOption = some (.file [7]) := by decide +kernel
  have hkept := (hplace (.file [7])).mpr (ok_of_toOption hbefore)
  have hremoved := (hpartial (by decide +kernel)).2 (by decide +kernel)
  have hnothing : (emitModule host unresolved "" "m" ⟨"out"⟩ : StateM RefusingFiles _) =
      pure (.error (.emission e')) := hemits host unresolved "" "m" e' he'
  -- Comparing what is written here with what was proved would run the writing.
  subst write path partialPath
  exact ⟨⟨⟨e, he⟩, hbeside, hkept, hremoved⟩, ⟨⟨p, hp⟩, hread, hgone, hbeside'⟩,
    ⟨e', he', hnothing⟩⟩

end RefusingFiles

end ScriptWasm
