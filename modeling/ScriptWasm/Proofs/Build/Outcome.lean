import ScriptWasm.Build.Compiler
import ScriptWasm.Proofs.Files.Changes
import ScriptWasm.Proofs.Library.Binding

/-!
# What a build leaves behind

A compiler is used again and again. What it reports about a source does not depend on what it was
used for before, because all that it carries from one use to the next is what was discovered. A
build touches files only if nothing is wrong with the source. When it succeeds the module is
complete and stays complete: of the files that are put beside it afterwards, none is put where the
module is.
-/

namespace ScriptWasm

/-! ## Reports -/

namespace Report

theorem pushAll_cons (r : Report) (d : Diagnostic) (ds : List Diagnostic) :
    r.pushAll (d :: ds) = (r.push d).pushAll ds := rfl

theorem total_pushAll (r : Report) (ds : List Diagnostic) :
    (r.pushAll ds).total = r.total + ds.length := by
  induction ds generalizing r with
  | nil => rfl
  | cons d ds ih =>
    rw [pushAll_cons, ih, List.length_cons]
    exact Nat.add_right_comm r.total 1 ds.length

/-- What is kept are the first of all diagnostics. -/
theorem errors_pushAll (r : Report) (ds : List Diagnostic) (h : r.errors.length ≤ capacity) :
    (r.pushAll ds).errors = (r.errors ++ ds).take capacity := by
  induction ds generalizing r with
  | nil =>
    rw [List.append_nil, List.take_of_length_le h]
    rfl
  | cons d ds ih =>
    rw [pushAll_cons, push]
    by_cases hroom : r.errors.length < capacity
    · rw [if_pos hroom, ih ⟨_, _⟩ (by simpa using Nat.succ_le_of_lt hroom)]
      simp
    · have hlength : r.errors.length = capacity := by omega
      rw [if_neg hroom, ih ⟨_, r.total + 1⟩ h, List.take_left' hlength, List.take_left' hlength]

theorem hasErrors_pushAll_empty (ds : List Diagnostic) :
    (empty.pushAll ds).hasErrors = true ↔ (empty.pushAll ds).errors ≠ [] := by
  rw [hasErrors, total_pushAll, errors_pushAll _ _ (Nat.zero_le _), decide_eq_true_iff]
  cases ds with
  | nil => simp [empty]
  | cons d ds => simp [empty, capacity]

end Report

namespace SourceText

variable (source : SourceText) (r : Registry)

theorem hasErrors_compile :
    (source.compile r).2.hasErrors = true ↔ (source.compile r).2.errors ≠ [] := by
  rw [compile]
  split
  · exact Report.hasErrors_pushAll_empty _
  · exact Report.hasErrors_pushAll_empty _

theorem program_compile : (source.compile r).1 = (Program.parse source).1 := by
  rw [compile]
  split
  · rename_i h
    rw [h]
  · rename_i h
    rw [h]

/-- A source without a program does not go without a diagnostic. -/
theorem hasErrors_of_program_eq_none (h : (source.compile r).1 = none) :
    (source.compile r).2.hasErrors = true := by
  rw [program_compile, Program.parse] at h
  rw [compile, Program.parse]
  split at h
  · rename_i f hf
    simp only [Report.hasErrors, Report.total_pushAll, List.length_singleton]
    rfl
  · split at h
    · cases h
    · cases h

end SourceText

/-! ## Writing -/

theorem andThen_eq_ok {σ : Type} {s s' : σ} {x y : StateM σ (Except FileError Unit)}
    (h : andThen x y s = (.ok (), s')) : ∃ s₁, x s = (.ok (), s₁) ∧ y s₁ = (.ok (), s') := by
  rw [andThen, stateM_bind_apply] at h
  cases hx : x s with
  | mk r s₁ =>
    rw [hx] at h
    cases r with
    | error e => cases h
    | ok => exact ⟨s₁, rfl, h⟩

section TreeFiles

variable {σ : Type} [TreeFiles σ] {s s' : σ}

open TreeFiles

/-- A file that has been written holds what should be written. -/
theorem read_writeWhole {path partialPath : Path} {bytes : Bytes}
    (h : (writeWhole path partialPath bytes : StateM σ _) s = (.ok (), s')) :
    (tree s').read path = .ok bytes := by
  rw [writeWhole, stateM_bind_apply] at h
  generalize hwritten : (andThen (Files.create partialPath) <|
    andThen (Files.append partialPath bytes) <|
    andThen (Files.sync partialPath) (Files.rename partialPath path) : StateM σ _) s = w at h
  obtain ⟨r, s₄⟩ := w
  cases r with
  | error e => cases h
  | ok =>
    cases h
    obtain ⟨s₁, hcreate, h⟩ := andThen_eq_ok hwritten
    obtain ⟨s₂, happend, h⟩ := andThen_eq_ok h
    obtain ⟨s₃, hsync, hrename⟩ := andThen_eq_ok h
    have hcreated := create_ends partialPath s
    have happended := append_ends partialPath bytes s₁
    have hsynced := sync_ends partialPath s₂
    have hrenamed := rename_ends partialPath path s₃
    rw [hcreate] at hcreated
    rw [happend] at happended
    rw [hsync] at hsynced
    rw [hrename] at hrenamed
    -- The file is empty at first, gets its bytes, and is moved with them.
    obtain ⟨l, hl, hmade⟩ := FileTree.create_eq_ok hcreated.eq_ok
    have hempty : (tree s₁).read partialPath = .ok [] := hmade ▸ FileTree.read_set_file hl []
    have hwhole := FileTree.read_append hempty happended.eq_ok
    have hsame : tree s₂ = tree s₃ := Except.ok.inj hsynced.eq_ok
    rw [hsame] at hwhole
    exact FileTree.read_rename hwhole hrenamed.eq_ok

theorem read_writeModule {directory path : Path} {fileName : String} {bytes : Bytes}
    (h : (writeModule directory fileName bytes : StateM σ _) s = (.ok path, s')) :
    path = directory.join fileName ∧ (tree s').read path = .ok bytes := by
  rw [writeModule, stateM_bind_apply] at h
  generalize hwritten : (writeWhole (directory.join fileName)
    (directory.join (fileName ++ ".partial")) bytes : StateM σ _) s = w at h
  obtain ⟨r, s₁⟩ := w
  cases r with
  | error e => cases h
  | ok =>
    cases h
    exact ⟨rfl, read_writeWhole hwritten⟩

/-- A module that has been emitted is where it should be. -/
theorem read_emitModule {host : Host} {p : Program} {source outputName : String}
    {directory path : Path}
    (h : (emitModule host p source outputName directory : StateM σ _) s = (.ok path, s')) :
    ∃ bytes, host.assemble p source = .ok bytes ∧
      path = directory.join (outputName ++ ".wasm") ∧ (tree s').read path = .ok bytes := by
  rw [emitModule] at h
  cases hbytes : host.assemble p source with
  | error e =>
    rw [hbytes] at h
    cases h
  | ok bytes =>
    rw [hbytes] at h
    exact ⟨bytes, rfl, read_writeModule h⟩

/-! ## Packaging -/

theorem sameFile_snd (p q : Path) (s : σ) : ((sameFile p q : StateM σ _) s).2 = s := by
  rw [sameFile, stateM_bind_apply, canonical_apply]
  cases (tree s).canonical p with
  | error e => rfl
  | ok a =>
    simp only [stateM_bind_apply, canonical_apply]
    cases (tree s).canonical q with
    | error e => rfl
    | ok b => rfl

/-- Paths that lead to one place lead to the same file, if there is one. -/
theorem sameFile_fst_of_locate {p q : Path} {l : Location} {e : Entry}
    (hp : (tree s).locate p = .ok l) (hq : (tree s).locate q = .ok l)
    (he : (tree s).get? l = some e) : ((sameFile p q : StateM σ _) s).1 = true := by
  have hcanonical {r : Path} (hr : (tree s).locate r = .ok l) :
      (tree s).canonical r = .ok (FileTree.pathOf l) := by
    rw [FileTree.canonical, hr, ok_bind, he]
  rw [sameFile, stateM_bind_apply, canonical_apply, hcanonical hp]
  simp only [stateM_bind_apply, canonical_apply, hcanonical hq]
  rw [stateM_pure_apply, decide_true]

/-- What is done for one file: nothing, or a copy to a place that is neither the module nor the file
itself. -/
theorem packageFile_cases (directory module file : Path) (s : σ) :
    ((packageFile directory module file : StateM σ _) s).2 = s ∨
      ∃ name, file.fileName? = some name ∧
        (directory.join name).components ≠ module.components ∧
        ((sameFile module (directory.join name) : StateM σ _) s).1 = false ∧
        ((sameFile file (directory.join name) : StateM σ _) s).1 = false ∧
        ((packageFile directory module file : StateM σ _) s).2 =
          ((Files.copy file (directory.join name) : StateM σ _) s).2 := by
  rw [packageFile]
  cases file.fileName? with
  | none => exact .inl rfl
  | some name =>
    dsimp only
    by_cases hcomponents : (directory.join name).components = module.components
    · rw [if_pos hcomponents]
      exact .inl rfl
    · rw [if_neg hcomponents, stateM_bind_apply, sameFile_snd]
      cases hmodule : ((sameFile module (directory.join name) : StateM σ _) s).1 with
      | true => exact .inl rfl
      | false =>
        rw [if_neg Bool.false_ne_true, stateM_bind_apply, sameFile_snd]
        cases hfile : ((sameFile file (directory.join name) : StateM σ _) s).1 with
        | true => exact .inl rfl
        | false => exact .inr ⟨name, rfl, hcomponents, hmodule, hfile, rfl⟩

/-- A file that is put beside the module leaves the module as it is. -/
theorem read_packageFile {directory module file : Path} {bytes : Bytes}
    (h : (tree s).read module = .ok bytes) :
    (tree ((packageFile directory module file : StateM σ _) s).2).read module = .ok bytes := by
  obtain hsame | ⟨name, -, -, hmodule, -, hcopy⟩ := packageFile_cases directory module file s
  · rw [hsame]
    exact h
  · rw [hcopy]
    obtain hleft | ⟨l', contents, hl', hput⟩ := (copy_ends file (directory.join name) s).copy
    · rw [hleft]
      exact h
    · obtain ⟨l, hl, hget⟩ := FileTree.read_eq_ok_iff.mp h
      have hne : l ≠ l' := by
        rintro rfl
        -- Both paths would lead to the module, which exists.
        have hsame := sameFile_fst_of_locate hl (FileTree.target_eq_ok hl').1 hget
        exact Bool.false_ne_true (hmodule.symm.trans hsame)
      rw [hput]
      exact FileTree.read_set_file_of_ne h hl hl' hne contents

theorem read_packageAll {directory module : Path} {bytes : Bytes} (files : List Path)
    (h : (tree s).read module = .ok bytes) :
    (tree ((packageAll directory module files : StateM σ _) s).2).read module = .ok bytes := by
  induction files generalizing s with
  | nil => exact h
  | cons file files ih => exact ih (read_packageFile h)

end TreeFiles

/-! ## The compiler -/

namespace Compiler

/-- Something that is asked of a compiler. -/
inductive Call where
  | compile (source : SourceText)
  | build (source : SourceText) (outputName : String) (directory : Path)

section Calls

variable {m : Type → Type} [Monad m] [Files m]

/-- The compiler behind a call. -/
def perform (c : Compiler) : Call → m Compiler
  | .compile source => return (c.compile source).2
  | .build source outputName directory => return (← c.build source outputName directory).2

/-- The compiler behind calls one after the other. -/
def performAll (c : Compiler) : List Call → m Compiler
  | [] => return c
  | call :: calls => do (← c.perform call).performAll calls

end Calls

variable {σ : Type} [TreeFiles σ]

open TreeFiles

theorem program_compile (c : Compiler) (source : SourceText) :
    (c.compile source).1 = (Program.parse source).1 :=
  SourceText.program_compile source c.discovery.host.registry

theorem errors_compile (c : Compiler) (source : SourceText) :
    (c.compile source).2.errors = (source.compile c.discovery.host.registry).2 := rfl

theorem discovery_compile (c : Compiler) (source : SourceText) :
    (c.compile source).2.discovery = c.discovery := rfl

/-- A build of a source that something is wrong with touches no file. -/
theorem build_of_hasErrors {c : Compiler} {source : SourceText} (outputName : String)
    (directory : Path) (s : σ) (h : (c.compile source).2.errors.hasErrors = true) :
    (c.build source outputName directory : StateM σ _) s =
      ((.ok (c.compile source).2.errors, (c.compile source).2), s) := by
  rw [build]
  generalize c.compile source = compiled at h ⊢
  obtain ⟨program, checked⟩ := compiled
  cases program with
  | none => rfl
  | some p => exact congrFun (if_pos h) s

/-- A build of a source that nothing is wrong with emits the module and packages it. -/
theorem build_of_clean {c : Compiler} {source : SourceText} {p : Program} (outputName : String)
    (directory : Path) (s : σ) (hp : (Program.parse source).1 = some p)
    (h : (c.compile source).2.errors.hasErrors = false) :
    (c.build source outputName directory : StateM σ _) s =
      match (emitModule c.discovery.host p source.text outputName directory : StateM σ _) s with
      | (.error e, s₁) => ((.error e, (c.compile source).2), s₁)
      | (.ok module, s₁) =>
        ((.ok (c.compile source).2.errors, (c.compile source).2),
          ((packageAll directory module c.discovery.supportFiles : StateM σ _) s₁).2) := by
  have hprogram : (c.compile source).1 = some p := (c.program_compile source).trans hp
  have hdiscovery := c.discovery_compile source
  rw [build]
  generalize c.compile source = compiled at hprogram hdiscovery h ⊢
  obtain ⟨program, checked⟩ := compiled
  cases hprogram
  simp only [h, Bool.false_eq_true, if_false, stateM_bind_apply]
  simp only at hdiscovery
  rw [hdiscovery]
  cases (emitModule c.discovery.host p source.text outputName directory : StateM σ _) s with
  | mk r s₁ =>
    cases r with
    | error e => rfl
    | ok module => rfl

theorem exists_program_of_clean (c : Compiler) {source : SourceText}
    (h : (c.compile source).2.errors.hasErrors = false) :
    ∃ p, (Program.parse source).1 = some p := by
  rw [← Option.ne_none_iff_exists']
  intro hnone
  have herrors := source.hasErrors_of_program_eq_none c.discovery.host.registry
    ((source.program_compile _).trans hnone)
  exact Bool.false_ne_true (h.symm.trans herrors)

/-- A build stores the report of its source, and if it shows one it shows this one. -/
theorem report_build (c : Compiler) (source : SourceText) (outputName : String)
    (directory : Path) (s : σ) :
    ((c.build source outputName directory : StateM σ _) s).1.2 = (c.compile source).2 ∧
      ∀ shown, ((c.build source outputName directory : StateM σ _) s).1.1 = .ok shown →
        shown = (c.compile source).2.errors := by
  cases herrors : (c.compile source).2.errors.hasErrors with
  | true =>
    rw [build_of_hasErrors outputName directory s herrors]
    exact ⟨rfl, fun shown hshown ↦ (Except.ok.inj hshown).symm⟩
  | false =>
    obtain ⟨p, hp⟩ := c.exists_program_of_clean herrors
    rw [build_of_clean outputName directory s hp herrors]
    split
    · exact ⟨rfl, nofun⟩
    · exact ⟨rfl, fun shown hshown ↦ (Except.ok.inj hshown).symm⟩

/-- What has been discovered stays what it is. -/
theorem discovery_perform (c : Compiler) (call : Call) (s : σ) :
    ((c.perform call : StateM σ _) s).1.discovery = c.discovery := by
  cases call with
  | compile source => exact c.discovery_compile source
  | build source outputName directory =>
    obtain ⟨hbuild, -⟩ := c.report_build source outputName directory s
    exact (congrArg discovery hbuild).trans (c.discovery_compile source)

theorem discovery_performAll (c : Compiler) (calls : List Call) (s : σ) :
    ((c.performAll calls : StateM σ _) s).1.discovery = c.discovery := by
  induction calls generalizing c s with
  | nil => rfl
  | cons call calls ih => exact (ih _ _).trans (c.discovery_perform call s)

/-- What a successful build of a source that nothing is wrong with leaves. -/
theorem read_build {c : Compiler} {source : SourceText} {outputName : String} {directory : Path}
    {s : σ} {report : Report} (herrors : (c.compile source).2.errors.hasErrors = false)
    (h : ((c.build source outputName directory : StateM σ _) s).1.1 = .ok report) :
    ∃ p bytes, (Program.parse source).1 = some p ∧
      c.discovery.host.assemble p source.text = .ok bytes ∧
      (tree ((c.build source outputName directory : StateM σ _) s).2).read
        (directory.join (outputName ++ ".wasm")) = .ok bytes := by
  obtain ⟨p, hp⟩ := c.exists_program_of_clean herrors
  rw [build_of_clean outputName directory s hp herrors] at h ⊢
  split at h
  · cases h
  · rename_i path s₁ hemit
    obtain ⟨bytes, hbytes, rfl, hread⟩ := read_emitModule hemit
    exact ⟨p, bytes, hp, hbytes, read_packageAll _ hread⟩

/-- **The outcome of a build**, after any calls and with any files. What is reported and kept is
what a new compiler reports about the source. Compiling touches no file, nor does a build of a
source that something is wrong with. A build that ends well has put the assembled module in its
place, and nothing that is packaged has replaced it. -/
theorem build_outcome (found : Discovery) (calls : List Call) (earlier now : σ)
    (source : SourceText) (outputName : String) (directory : Path) :
    let fresh : Compiler := ⟨found, .empty⟩
    let report := (fresh.compile source).2.errors
    let c := ((fresh.performAll calls : StateM σ _) earlier).1
    let compiled := (c.perform (.compile source) : StateM σ _) now
    let built := (c.build source outputName directory : StateM σ _) now
    (compiled.1.errors = report ∧ compiled.2 = now) ∧
      built.1.2.errors = report ∧
      (report.errors ≠ [] → built.1.1 = .ok report ∧ built.2 = now) ∧
      ∀ shown, built.1.1 = .ok shown → shown = report ∧
        (shown.errors = [] → ∃ p bytes, (Program.parse source).1 = some p ∧
          found.host.assemble p source.text = .ok bytes ∧
          (tree built.2).read (directory.join (outputName ++ ".wasm")) = .ok bytes) := by
  intro fresh report c compiled built
  have hdiscovery : c.discovery = found := fresh.discovery_performAll calls earlier
  have hreport : (c.compile source).2.errors = report := by
    rw [errors_compile, hdiscovery]
    rfl
  have hlisted : report.hasErrors = true ↔ report.errors ≠ [] :=
    source.hasErrors_compile found.host.registry
  obtain ⟨hstored, hshows⟩ := c.report_build source outputName directory now
  refine ⟨⟨hreport, rfl⟩, (congrArg errors hstored).trans hreport, ?_, ?_⟩
  · intro hwrong
    have hbuilt := build_of_hasErrors outputName directory now (hreport ▸ hlisted.mpr hwrong)
    rw [← hreport]
    exact ⟨congrArg (·.1.1) hbuilt, congrArg (·.2) hbuilt⟩
  · intro shown hshown
    have hsame : shown = report := (hshows shown hshown).trans hreport
    refine ⟨hsame, fun hnone ↦ ?_⟩
    have hclean : (c.compile source).2.errors.hasErrors = false := by
      rw [hreport, Bool.eq_false_iff]
      exact fun hwrong ↦ hlisted.mp hwrong (hsame ▸ hnone)
    exact hdiscovery ▸ read_build hclean hshown

/-- A support library that has the file name of the module, in a directory that the module is
written to by a detour. -/
def namesakeFiles : FileTree where
  entries :=
    [(["lib"], .directory), (["lib", "m.wasm"], .file [1, 2]), (["out"], .directory),
      (["out", "x"], .directory)]
  working := []

def namesakeDiscovery : Discovery where
  host := ⟨.empty, .usual "runtime"⟩
  runtime := ⟨"lib/m.wasm"⟩
  references := []
  libraryFiles := []

/-- What is built behind a call that went wrong. -/
def namesakeBuilt : (Except BuildError Report × Compiler) × FileTree :=
  let c := ((⟨namesakeDiscovery, .empty⟩ : Compiler).performAll [.compile ⟨"first", "?"⟩] :
    StateM FileTree _) namesakeFiles |>.1
  (c.build ⟨"second", "[]"⟩ "x/../m" ⟨"out"⟩ : StateM FileTree _) namesakeFiles

theorem toOption_namesakeBuilt : namesakeBuilt.1.1.toOption = some .empty := by decide +kernel

theorem namesakeBuilt_fst : namesakeBuilt.1.1 = .ok .empty := by
  have h := toOption_namesakeBuilt
  generalize namesakeBuilt.1.1 = shown at h ⊢
  cases shown with
  | error e => cases h
  | ok report => exact congrArg Except.ok (Option.some.inj h)

theorem namesake_build_outcome :
    namesakeBuilt.1.1 = .ok .empty ∧
      ∃ p bytes, (Program.parse ⟨"second", "[]"⟩).1 = some p ∧
        namesakeDiscovery.host.assemble p "[]" = .ok bytes ∧
        (tree namesakeBuilt.2).read (Path.join ⟨"out"⟩ ("x/../m" ++ ".wasm")) = .ok bytes :=
  have houtcome := build_outcome namesakeDiscovery [.compile ⟨"first", "?"⟩] namesakeFiles
    namesakeFiles ⟨"second", "[]"⟩ "x/../m" ⟨"out"⟩
  ⟨namesakeBuilt_fst, (houtcome.2.2.2 .empty namesakeBuilt_fst).2 rfl⟩

end Compiler

end ScriptWasm
