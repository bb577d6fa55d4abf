import ScriptWasm.Proofs.Build.Outcome
import ScriptWasm.Proofs.Files.Locations

/-!
# What is put beside a module

The files that a module needs are put beside it one after the other, so that of several files of one
name the last one stays. But a file that is where it should be put is left alone, and by then it may
no longer be what it was: an earlier file of that name from somewhere else has been put there. What
stays is therefore the last file of the name that comes from somewhere else, if there is one. It is
the last file of the name at all exactly if that one comes from somewhere else too, or if both are
the same.

Everything rests on file names. A copy changes what is at one location, whose last name is the name
of the file that is copied. So it can be seen only through paths with that file name, and of those
only through the ones that lead to the place beside the module.
-/

namespace ScriptWasm

/-! ## Attempts -/

section Definitions

variable {σ : Type} [TreeFiles σ]

/-- Whether the copy of a file is attempted: its place is not that of the module, and it is not
there already. -/
def attempts (directory module : Path) (name : String) (file : Path) (s : σ) : Bool :=
  (directory.join name).components ≠ module.components &&
    !((sameFile module (directory.join name) : StateM σ _) s).1 &&
    !((sameFile file (directory.join name) : StateM σ _) s).1

/-- Whether all copies that are attempted succeed. -/
def copiesSucceed (directory module : Path) : List Path → σ → Bool
  | [], _ => true
  | file :: rest, s =>
    (file.fileName?.all fun name ↦ !attempts directory module name file s ||
      ((Files.copy file (directory.join name) : StateM σ _) s).1.isOk) &&
      copiesSucceed directory module rest ((packageFile directory module file : StateM σ _) s).2

end Definitions

/-- The last of the files with a name. -/
def lastNamed? (name : String) (files : List Path) : Option Path :=
  (files.filter fun file ↦ file.fileName? = some name).getLast?

theorem fileName?_of_lastNamed? {name : String} {files : List Path} {file : Path}
    (h : lastNamed? name files = some file) : file.fileName? = some name := by
  simpa using (List.mem_filter.mp (List.mem_of_getLast? h)).2

namespace FileTree

/-- Whether a file has a name and is not where it is put under that name. -/
def isElsewhere (t : FileTree) (directory : Path) (name : String) (file : Path) : Bool :=
  file.fileName? = some name && !t.sameLocation file (directory.join name)

/-- The last of the files with a name that are not where they are put. -/
def lastElsewhere? (t : FileTree) (directory : Path) (name : String) (files : List Path) :
    Option Path :=
  (files.filter (t.isElsewhere directory name)).getLast?

variable {t t' : FileTree} {directory file p q : Path} {name : String} {files : List Path}
  {bytes : Bytes}

theorem isElsewhere_iff : t.isElsewhere directory name file = true ↔
    file.fileName? = some name ∧ t.sameLocation file (directory.join name) = false := by
  simp [isElsewhere]

theorem lastElsewhere?_cons (t : FileTree) (directory : Path) (name : String) (file : Path)
    (files : List Path) : t.lastElsewhere? directory name (file :: files) =
      (t.lastElsewhere? directory name files).or
        (if t.isElsewhere directory name file then some file else none) := by
  rw [lastElsewhere?, List.filter_cons]
  split
  · rw [List.getLast?_cons, lastElsewhere?]
    cases (files.filter (t.isElsewhere directory name)).getLast? <;> rfl
  · rw [Option.or_none, lastElsewhere?]

/-- The last file of the name is the last one from somewhere else, unless it is in its place. -/
theorem lastElsewhere?_of_lastNamed? (hfile : lastNamed? name files = some file)
    (haway : t.sameLocation file (directory.join name) = false) :
    t.lastElsewhere? directory name files = some file := by
  obtain ⟨before, hbefore⟩ := List.getLast?_eq_some_iff.mp hfile
  have hfilter : files.filter (t.isElsewhere directory name) =
      (files.filter fun file ↦ file.fileName? = some name).filter fun file ↦
        !t.sameLocation file (directory.join name) := by
    rw [List.filter_filter]
    exact List.filter_congr fun file _ ↦ Bool.and_comm _ _
  rw [lastElsewhere?, hfilter, hbefore, List.filter_append,
    List.filter_cons_of_pos (by simp [haway])]
  exact List.getLast?_concat

/-- Paths to one location see the same file. -/
theorem read_iff_of_sameLocation (h : t.sameLocation p q = true) :
    t.read p = .ok bytes ↔ t.read q = .ok bytes := by
  obtain ⟨l, hp, hq⟩ := sameLocation_iff.mp h
  simp only [read_eq_ok_iff, hp, hq]

/-! ## One file -/

/-- A file is packaged: nothing is done, or the file comes from somewhere else and is put in its
place. -/
inductive Packages (t : FileTree) (directory file : Path) : FileTree → Prop
  | left : Packages t directory file t
  | put {name : String} {contents : Bytes} {l : Location}
    (helsewhere : t.isElsewhere directory name file = true) (hread : t.read file = .ok contents)
    (hl : t.target (directory.join name) = .ok l) :
    Packages t directory file (t.set l (.file contents))

namespace Packages

theorem working (h : t.Packages directory file t') : t'.working = t.working := by
  cases h <;> rfl

theorem sameLocation_eq (h : t.Packages directory file t') (p q : Path) :
    t'.sameLocation p q = t.sameLocation p q := by
  cases h with
  | left => rfl
  | put helsewhere hread hl => exact sameLocation_set_file (target_eq_ok hl).2 _ p q

theorem isElsewhere_eq (h : t.Packages directory file t') :
    t'.isElsewhere directory name = t.isElsewhere directory name := by
  funext p
  rw [isElsewhere, isElsewhere, h.sameLocation_eq]

theorem lastElsewhere?_eq (h : t.Packages directory file t') :
    t'.lastElsewhere? directory name files = t.lastElsewhere? directory name files := by
  rw [lastElsewhere?, lastElsewhere?, h.isElsewhere_eq]

/-- What a path shows changes only if a file with its file name comes from somewhere else and the
path leads to the place for it. -/
theorem read_iff (h : t.Packages directory file t') (hp : p.fileName? = some name)
    (hother : t.isElsewhere directory name file = true →
      t.sameLocation p (directory.join name) = false) :
    t'.read p = .ok bytes ↔ t.read p = .ok bytes := by
  cases h with
  | left => rfl
  | @put fileName contents l helsewhere hread hl =>
    obtain ⟨hlocate, hdirectory⟩ := target_eq_ok hl
    have hname := Path.isName_of_fileName? (isElsewhere_iff.mp helsewhere).1
    refine read_set_file_iff hdirectory contents fun hpl ↦ ?_
    -- The last name of the place is that of the path and that of the file.
    have hlast := getLast?_of_locate hp hpl
    rw [getLast?_of_locate (hname.fileName?_join directory) hlocate] at hlast
    obtain rfl := Option.some.inj hlast
    exact sameLocation_eq_false (hother helsewhere) hpl hlocate rfl

end Packages

end FileTree

section TreeFiles

variable {σ : Type} [TreeFiles σ] {s : σ} {directory module file : Path} {name own : String}
  {files : List Path} {bytes : Bytes}

open TreeFiles FileTree

/-- Paths lead to the same file exactly if they lead to one location, where something is. -/
theorem sameFile_fst_iff (hworking : AreNames (tree s).working) {p q : Path} :
    ((sameFile p q : StateM σ _) s).1 = true ↔
      ∃ l e, (tree s).locate p = .ok l ∧ (tree s).locate q = .ok l ∧ (tree s).get? l = some e := by
  constructor
  · intro h
    rw [sameFile, stateM_bind_apply, canonical_apply] at h
    cases hp : (tree s).canonical p with
    | error e => simp [hp, stateM_pure_apply] at h
    | ok a =>
      simp only [hp, stateM_bind_apply, canonical_apply] at h
      cases hq : (tree s).canonical q with
      | error e => simp [hq, stateM_pure_apply] at h
      | ok b =>
        obtain ⟨l, e, hl, he, rfl⟩ := canonical_eq_ok hp
        obtain ⟨l', e', hl', -, rfl⟩ := canonical_eq_ok hq
        rw [hq] at h
        have hpaths : pathOf l = pathOf l' := of_decide_eq_true h
        obtain rfl := pathOf_injective (areNames_of_locate hworking hl)
          (areNames_of_locate hworking hl') hpaths
        exact ⟨l, e, hl, hl', he⟩
  · rintro ⟨l, e, hp, hq, he⟩
    exact sameFile_fst_of_locate hp hq he

/-! ## Attempts -/

theorem packageFile_of_attempts (hname : file.fileName? = some name)
    (h : attempts directory module name file s = true) :
    ((packageFile directory module file : StateM σ _) s).2 =
      ((Files.copy file (directory.join name) : StateM σ _) s).2 := by
  simp only [attempts, Bool.and_eq_true, decide_eq_true_eq, Bool.not_eq_true'] at h
  obtain ⟨⟨hcomponents, hmodule⟩, hfile⟩ := h
  rw [packageFile, hname]
  dsimp only
  rw [if_neg hcomponents, stateM_bind_apply, sameFile_snd, hmodule, if_neg Bool.false_ne_true,
    stateM_bind_apply, sameFile_snd, hfile, if_neg Bool.false_ne_true]
  rfl

/-- A copy that succeeds has put the file in its place. -/
theorem tree_packageFile_of_attempts (hname : file.fileName? = some name)
    (h : attempts directory module name file s = true)
    (hsucceeds : ((Files.copy file (directory.join name) : StateM σ _) s).1.isOk = true) :
    ∃ contents l, (tree s).read file = .ok contents ∧
      (tree s).target (directory.join name) = .ok l ∧
      tree ((packageFile directory module file : StateM σ _) s).2 =
        (tree s).set l (.file contents) := by
  have hends := copy_ends file (directory.join name) s
  obtain ⟨_, hok⟩ := exists_of_isOk hsucceeds
  rw [hok] at hends
  rw [packageFile_of_attempts hname h]
  exact copy_eq_ok hends.eq_ok

/-- A copy is not attempted if the file is there already. -/
theorem sameLocation_of_attempts {contents : Bytes}
    (h : attempts directory module name file s = true) (hread : (tree s).read file = .ok contents) :
    (tree s).sameLocation file (directory.join name) = false := by
  refine Bool.eq_false_iff.mpr fun hsame ↦ ?_
  obtain ⟨l, hl, hplace⟩ := sameLocation_iff.mp hsame
  obtain ⟨k, hk, hget⟩ := read_eq_ok_iff.mp hread
  obtain rfl : k = l := Except.ok.inj (hk.symm.trans hl)
  simp [attempts, sameFile_fst_of_locate hl hplace hget] at h

/-- A file that comes from somewhere else and has not the name of the module is copied. -/
theorem attempts_of_isElsewhere (hworking : AreNames (tree s).working)
    (hmodule : module.fileName? = some own) (hown : name ≠ own)
    (helsewhere : (tree s).isElsewhere directory name file = true) :
    attempts directory module name file s = true := by
  obtain ⟨hfile, haway⟩ := isElsewhere_iff.mp helsewhere
  have hplace := (Path.isName_of_fileName? hfile).fileName?_join directory
  simp only [attempts, Bool.and_eq_true, decide_eq_true_eq, Bool.not_eq_true', Bool.eq_false_iff,
    ne_eq, sameFile_fst_iff hworking]
  refine ⟨⟨fun hcomponents ↦ ?_, ?_⟩, ?_⟩
  · have hsame : (directory.join name).fileName? = module.fileName? := by
      rw [Path.fileName?, hcomponents, Path.fileName?]
    rw [hplace, hmodule] at hsame
    exact hown (Option.some.inj hsame)
  · rintro ⟨l, e, hl, hl', -⟩
    have hlast := getLast?_of_locate hplace hl'
    rw [getLast?_of_locate hmodule hl] at hlast
    exact hown (Option.some.inj hlast).symm
  · rintro ⟨l, e, hl, hl', -⟩
    exact sameLocation_eq_false haway hl hl' rfl

/-- What is done for one file when its copy succeeds. -/
theorem packages_packageFile
    (hsucceeds : file.fileName?.all (fun name ↦ !attempts directory module name file s ||
      ((Files.copy file (directory.join name) : StateM σ _) s).1.isOk) = true) :
    (tree s).Packages directory file
      (tree ((packageFile directory module file : StateM σ _) s).2) := by
  obtain hleft | ⟨name, hname, hcomponents, hmodule, hfile, -⟩ :=
    packageFile_cases directory module file s
  · rw [hleft]
    exact .left
  · have hattempts : attempts directory module name file s = true := by
      simp [attempts, hcomponents, hmodule, hfile]
    rw [hname, Option.all_some, hattempts, Bool.not_true, Bool.false_or] at hsucceeds
    obtain ⟨contents, l, hread, hl, htree⟩ := tree_packageFile_of_attempts hname hattempts hsucceeds
    rw [htree]
    exact .put (isElsewhere_iff.mpr ⟨hname, sameLocation_of_attempts hattempts hread⟩) hread hl

/-! ## All files -/

theorem copiesSucceed_cons {rest : List Path}
    (h : copiesSucceed directory module (file :: rest) s = true) :
    file.fileName?.all (fun name ↦ !attempts directory module name file s ||
      ((Files.copy file (directory.join name) : StateM σ _) s).1.isOk) = true ∧
    copiesSucceed directory module rest ((packageFile directory module file : StateM σ _) s).2 =
      true := Bool.and_eq_true_iff.mp h

theorem isElsewhere_of_lastElsewhere? {t : FileTree}
    (h : t.lastElsewhere? directory name files = some file) :
    file ∈ files ∧ t.isElsewhere directory name file = true :=
  List.mem_filter.mp (List.mem_of_getLast? h)

section Run

variable (hworking : AreNames (tree s).working) (hmodule : module.fileName? = some own)
  (hown : name ≠ own)

include hworking hmodule hown

theorem tree_packageFile_of_isElsewhere
    (helsewhere : (tree s).isElsewhere directory name file = true)
    (hsucceeds : file.fileName?.all (fun name ↦ !attempts directory module name file s ||
      ((Files.copy file (directory.join name) : StateM σ _) s).1.isOk) = true) :
    ∃ contents l, (tree s).read file = .ok contents ∧
      (tree s).target (directory.join name) = .ok l ∧
      tree ((packageFile directory module file : StateM σ _) s).2 =
        (tree s).set l (.file contents) := by
  have hname := (isElsewhere_iff.mp helsewhere).1
  have hattempts := attempts_of_isElsewhere hworking hmodule hown helsewhere
  rw [hname, Option.all_some, hattempts, Bool.not_true, Bool.false_or] at hsucceeds
  exact tree_packageFile_of_attempts hname hattempts hsucceeds

variable (hsucceed : copiesSucceed directory module files s = true)

include hsucceed

/-- Every file that comes from somewhere else can be read. -/
theorem exists_read_of_isElsewhere (hfile : file ∈ files)
    (helsewhere : (tree s).isElsewhere directory name file = true) :
    ∃ bytes, (tree s).read file = .ok bytes := by
  induction files generalizing s with
  | nil => cases hfile
  | cons first rest ih =>
    obtain ⟨hfirst, hrest⟩ := copiesSucceed_cons hsucceed
    rcases List.mem_cons.mp hfile with rfl | hfile
    · obtain ⟨contents, -, hread, -⟩ :=
        tree_packageFile_of_isElsewhere hworking hmodule hown helsewhere hfirst
      exact ⟨contents, hread⟩
    · have hstep := packages_packageFile hfirst
      obtain ⟨hname, haway⟩ := isElsewhere_iff.mp helsewhere
      rw [← hstep.isElsewhere_eq] at helsewhere
      obtain ⟨bytes, hbytes⟩ := ih (hstep.working ▸ hworking) hrest hfile helsewhere
      exact ⟨bytes, (hstep.read_iff hname fun _ ↦ haway).mp hbytes⟩

/-- In the place beside the module is what the last file from somewhere else was, or what was there
before. -/
theorem read_join_packageAll (hname : Path.IsName name) :
    (tree ((packageAll directory module files : StateM σ _) s).2).read (directory.join name) =
        .ok bytes ↔
      (tree s).read (((tree s).lastElsewhere? directory name files).getD (directory.join name)) =
        .ok bytes := by
  induction files generalizing s with
  | nil => rfl
  | cons first rest ih =>
    obtain ⟨hfirst, hrest⟩ := copiesSucceed_cons hsucceed
    have hstep := packages_packageFile hfirst
    have hrun := ih (hstep.working ▸ hworking) hrest
    rw [hstep.lastElsewhere?_eq] at hrun
    refine hrun.trans ?_
    rw [lastElsewhere?_cons]
    cases hlast : (tree s).lastElsewhere? directory name rest with
    | some file =>
      obtain ⟨hfile, haway⟩ := isElsewhere_iff.mp (isElsewhere_of_lastElsewhere? hlast).2
      exact hstep.read_iff hfile fun _ ↦ haway
    | none =>
      cases helsewhere : (tree s).isElsewhere directory name first with
      | true =>
        obtain ⟨contents, l, hread, hl, htree⟩ :=
          tree_packageFile_of_isElsewhere hworking hmodule hown helsewhere hfirst
        simp only [Option.none_or, Option.getD_none, if_true, Option.getD_some, htree,
          read_set_file hl, hread]
      | false =>
        refine hstep.read_iff (hname.fileName?_join directory) fun h ↦ ?_
        exact absurd (helsewhere.symm.trans h) Bool.false_ne_true

/-- The same with the last file of the name, which is in the place if none comes from somewhere
else. -/
theorem read_join_packageAll_of_lastNamed? (hfile : lastNamed? name files = some file) :
    (tree ((packageAll directory module files : StateM σ _) s).2).read (directory.join name) =
        .ok bytes ↔
      (tree s).read (((tree s).lastElsewhere? directory name files).getD file) = .ok bytes := by
  have hname := Path.isName_of_fileName? (fileName?_of_lastNamed? hfile)
  refine (read_join_packageAll hworking hmodule hown hsucceed hname).trans ?_
  cases hother : (tree s).lastElsewhere? directory name files with
  | some other => rfl
  | none =>
    have hsame : (tree s).sameLocation file (directory.join name) = true := by
      refine eq_true_of_ne_false fun haway ↦ ?_
      rw [lastElsewhere?_of_lastNamed? hfile haway] at hother
      cases hother
    exact (read_iff_of_sameLocation hsame).symm

end Run

/-- **What packaging delivers** if every copy that is attempted succeeds, for a name that is not the
one of the module. The place of that name beside the module holds what the last support file of the
name that is not there itself held before, or what the last one held if all of them are there. That
is what the last support file held exactly if this one was not in its place, or if it was a file and
no other file of the name came from somewhere else, or the last that did had the same contents. -/
theorem Discovery.packageAll_delivers_iff (d : Discovery)
    (hworking : AreNames (tree s).working) (hmodule : module.fileName? = some own)
    (hown : name ≠ own) (hfile : lastNamed? name d.supportFiles = some file)
    (hsucceed : copiesSucceed directory module d.supportFiles s = true) :
    let place := directory.join name
    let packaged := tree ((packageAll directory module d.supportFiles : StateM σ _) s).2
    let other? := (tree s).lastElsewhere? directory name d.supportFiles
    (∀ bytes, packaged.read place = .ok bytes ↔
      (tree s).read (other?.getD file) = .ok bytes) ∧
    ((∃ bytes, (tree s).read file = .ok bytes ∧ packaged.read place = .ok bytes) ↔
      ((tree s).sameLocation file place = true →
        (∃ bytes, (tree s).read file = .ok bytes) ∧
          ∀ other, other? = some other → (tree s).read other = (tree s).read file)) := by
  intro place packaged other?
  have hread : ∀ bytes, packaged.read place = .ok bytes ↔
      (tree s).read (other?.getD file) = .ok bytes := fun bytes ↦
    read_join_packageAll_of_lastNamed? hworking hmodule hown hsucceed hfile
  refine ⟨hread, ?_⟩
  simp only [hread]
  cases haway : (tree s).sameLocation file place with
  | false =>
    have hother : other? = some file := lastElsewhere?_of_lastNamed? hfile haway
    obtain ⟨hmem, helsewhere⟩ := isElsewhere_of_lastElsewhere? hother
    obtain ⟨bytes, hbytes⟩ :=
      exists_read_of_isElsewhere hworking hmodule hown hsucceed hmem helsewhere
    simp only [hother, Option.getD_some, and_self, Bool.false_eq_true, false_implies, iff_true]
    exact ⟨bytes, hbytes⟩
  | true =>
    simp only [true_implies]
    cases hother : other? with
    | none => simp
    | some other =>
      simp only [Option.getD_some, Option.some.injEq, forall_eq']
      constructor
      · rintro ⟨bytes, hfile, hother⟩
        exact ⟨⟨bytes, hfile⟩, hother.trans hfile.symm⟩
      · rintro ⟨⟨bytes, hfile⟩, hsame⟩
        exact ⟨bytes, hfile, hsame.trans hfile⟩

end TreeFiles

/-! ## Libraries of one name -/

/-- Two libraries of one name in two directories, and a third one where modules are written to. -/
def namesakes : FileTree where
  entries :=
    [(["rt.wasm"], .file [0]), (["lib"], .directory), (["lib", "x.wasm"], .file [1]),
      (["mine"], .directory), (["mine", "x.wasm"], .file [2]), (["out"], .directory),
      (["out", "x.wasm"], .file [3]), (["out", "m.wasm"], .file [4])]
  working := []

/-- What is discovered if a library is found behind the one in the first directory. -/
def Discovery.ofSecond (second : Path) : Discovery where
  host := ⟨.empty, .usual "runtime"⟩
  runtime := ⟨"rt.wasm"⟩
  references := []
  libraryFiles := [⟨"lib/x.wasm"⟩, second]

open TreeFiles

theorem Discovery.packageAll_delivers_second :
    let d : Discovery := .ofSecond ⟨"mine/x.wasm"⟩
    lastNamed? "x.wasm" d.supportFiles = some ⟨"mine/x.wasm"⟩ ∧
      copiesSucceed ⟨"out"⟩ ⟨"out/m.wasm"⟩ d.supportFiles namesakes = true ∧
      ∃ bytes, (tree namesakes).read ⟨"mine/x.wasm"⟩ = .ok bytes ∧
        (tree ((packageAll ⟨"out"⟩ ⟨"out/m.wasm"⟩ d.supportFiles : StateM FileTree _)
          namesakes).2).read (Path.join ⟨"out"⟩ "x.wasm") = .ok bytes := by
  intro d
  have hfile : lastNamed? "x.wasm" d.supportFiles = some ⟨"mine/x.wasm"⟩ := by decide +kernel
  have hsucceed : copiesSucceed ⟨"out"⟩ ⟨"out/m.wasm"⟩ d.supportFiles namesakes = true := by
    decide +kernel
  have haway : (tree namesakes).sameLocation ⟨"mine/x.wasm"⟩ (Path.join ⟨"out"⟩ "x.wasm") =
      false := by decide +kernel
  have hworking : FileTree.AreNames (tree namesakes).working := by decide
  have hmodule : (Path.mk "out/m.wasm").fileName? = some "m.wasm" := by decide +kernel
  have hdelivers := d.packageAll_delivers_iff hworking hmodule (by decide) hfile hsucceed
  refine ⟨hfile, hsucceed, hdelivers.2.mpr fun hsame ↦ ?_⟩
  exact absurd (haway.symm.trans hsame) Bool.false_ne_true

/-- If modules are written to where the second library is, the first one replaces it there. -/
theorem Discovery.packageAll_replaces_second :
    let d : Discovery := .ofSecond ⟨"out/x.wasm"⟩
    lastNamed? "x.wasm" d.supportFiles = some ⟨"out/x.wasm"⟩ ∧
      copiesSucceed ⟨"out"⟩ ⟨"out/m.wasm"⟩ d.supportFiles namesakes = true ∧
      (namesakes.read ⟨"out/x.wasm"⟩).toOption = some [3] ∧
      (((packageAll ⟨"out"⟩ ⟨"out/m.wasm"⟩ d.supportFiles : StateM FileTree _) namesakes).2.read
        (Path.join ⟨"out"⟩ "x.wasm")).toOption = some [1] := by
  decide +kernel

end ScriptWasm
