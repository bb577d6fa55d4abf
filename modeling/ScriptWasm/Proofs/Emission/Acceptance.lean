import ScriptWasm.Proofs.Emission.Finished
import ScriptWasm.Proofs.Library.Binding

/-!
# The checker and the emitter accept the same programs

The checker and the two walks of the emitter look for the same things in different orders and with
different data. They never disagree: a program has no diagnostics exactly if its tables can be
filled and the code of all its routines can be emitted, as long as its counts fit in a word.
-/

namespace ScriptWasm

open Wasm

theorem Program.subroutineBodies_eq (p : Program) :
    p.subroutineBodies = (topSubroutines p.body).map Prod.snd := by
  rw [subroutineBodies, topSubroutines, List.map_filterMap]
  refine List.filterMap_congr fun s _ ↦ ?_
  cases s <;> rfl

theorem mem_of_mem_topSubroutines {body : List Stmt} {s : String × List Stmt}
    (hs : s ∈ topSubroutines body) : ∃ span, .sub s.1 s.2 span ∈ body := by
  obtain ⟨st, hst, heq⟩ := List.mem_filterMap.mp hs
  obtain ⟨span, rfl⟩ := Stmt.eq_sub heq
  exact ⟨span, hst⟩

namespace Registry

variable {r : Registry} {body : List Stmt} {s : String × List Stmt}

/-- The statements of a subroutine are admitted as such. -/
theorem AdmitsStmts.subroutine (ha : r.AdmitsStmts .entry body) (hs : s ∈ topSubroutines body) :
    r.AdmitsStmts .subroutine s.2 := by
  obtain ⟨span, hst⟩ := mem_of_mem_topSubroutines hs
  exact (admitsStmts_iff.mp ha _ hst).2

/-- A subroutine demands nothing that the program does not demand. -/
theorem mem_stmtsDemands_of_subroutine (hs : s ∈ topSubroutines body) {d : Demand}
    (hd : d ∈ r.stmtsDemands s.2) : d ∈ r.stmtsDemands body := by
  obtain ⟨span, hst⟩ := mem_of_mem_topSubroutines hs
  rw [stmtsDemands_eq_flatMap, List.mem_flatMap]
  exact ⟨_, hst, by simp [stmtDemands, hd]⟩

end Registry

namespace Tables.IsFinished

variable {h : Host} {p : Program} {t : Tables}

/-- Once the tables are filled, code can be emitted exactly if every routine is resolved. -/
theorem lowerProgram_succeedsIff (ht : t.IsFinished h p) :
    SucceedsIff (Setting.lowerProgram ⟨h, t⟩ p)
      ((p.names h.registry).ResolvesStmts (labelNames p.body) p.body ∧
        ∀ s ∈ topSubroutines p.body,
          (p.names h.registry).ResolvesStmts (labelNames s.2) s.2) := by
  have hentry := ht.isFor.routineCode ht.admitted ht.provides ht.labelsOf_entry
  have hothers : SucceedsIff
      (p.subroutineBodies.zipIdx.mapM fun e ↦
        Setting.routineCode ⟨h, t⟩ (.subroutine e.2) e.1)
      (∀ e ∈ p.subroutineBodies.zipIdx,
        (p.names h.registry).ResolvesStmts (labelNames e.1) e.1) := by
    refine .mapM fun e he ↦ ?_
    rw [Program.subroutineBodies_eq, List.mem_zipIdx_iff_getElem?, List.getElem?_map,
      Option.map_eq_some_iff] at he
    obtain ⟨s, hs, hbody⟩ := he
    have hmem := List.mem_of_getElem? hs
    rw [← hbody]
    exact ht.isFor.routineCode (ht.admitted.subroutine hmem)
      (fun d hd ↦ ht.provides d (Registry.mem_stmtsDemands_of_subroutine hmem hd))
      (ht.labelsOf_subroutine hs)
  refine (hentry.bind fun _ _ ↦ hothers.bind fun _ _ ↦ .pure _).congr ?_
  rw [and_true, Program.subroutineBodies_eq]
  refine and_congr_right fun _ ↦ ⟨fun hall s hs ↦ ?_, fun hall e he ↦ ?_⟩
  · obtain ⟨i, hi⟩ := List.getElem?_of_mem hs
    exact hall (s.2, i) (List.mem_zipIdx_iff_getElem?.mpr (by simp [hi]))
  · rw [List.mem_zipIdx_iff_getElem?, List.getElem?_map, Option.map_eq_some_iff] at he
    obtain ⟨s, hs, heq⟩ := he
    exact heq ▸ hall s (List.mem_of_getElem? hs)

end Tables.IsFinished

/-- Sound programs can be emitted. -/
theorem Program.IsSound.emits {h : Host} {p : Program} (hp : p.IsSound h.registry)
    (hfits : p.Fits h.registry) :
    ∃ tables codes, Tables.ofProgram h p = .ok tables ∧
      Setting.lowerProgram ⟨h, tables⟩ p = .ok codes := by
  obtain ⟨hsubs, ha, ⟨hnodup, hentry⟩, hothers⟩ := hp
  obtain ⟨t, ht⟩ := (Tables.ofProgram_succeedsIff hfits).mpr
    ⟨ha, hsubs, hnodup, fun s hs ↦ (hothers s hs).1⟩
  obtain ⟨codes, hcodes⟩ := (Tables.isFinished_of_ofProgram ht).lowerProgram_succeedsIff.mpr
    ⟨hentry, fun s hs ↦ (hothers s hs).2⟩
  exact ⟨t, codes, ht, hcodes⟩

/-- A program has no diagnostics exactly if its tables can be filled and the code of the routine
that it starts in and of all its subroutines can be emitted. -/
theorem Program.check_eq_nil_iff_emits (h : Host) (p : Program) (hfits : p.Fits h.registry) :
    p.check h.registry = [] ↔
      ∃ tables codes, Tables.ofProgram h p = .ok tables ∧
        Setting.lowerProgram ⟨h, tables⟩ p = .ok codes := by
  rw [check_eq_nil_iff]
  constructor
  · exact fun hp ↦ hp.emits hfits
  · rintro ⟨t, codes, ht, hcodes⟩
    obtain ⟨ha, hsubs, hnodup, hnodups⟩ := (Tables.ofProgram_succeedsIff hfits).mp ⟨t, ht⟩
    obtain ⟨hentry, hothers⟩ :=
      (Tables.isFinished_of_ofProgram ht).lowerProgram_succeedsIff.mp ⟨codes, hcodes⟩
    exact ⟨hsubs, ha, ⟨hnodup, hentry⟩, fun s hs ↦ ⟨hnodups s hs, hothers s hs⟩⟩

/-! ## A program that is accepted -/

/-- A host with one library method, which takes a value and returns none. -/
def Host.console : Host where
  registry := Registry.empty.insert
    { TypeDescriptor.bare "Console" false with
      methods :=
        KeyTable.empty.insert "write" ⟨"Console", "Write", ⟨"console", "write"⟩, 1, false⟩ }
  operators := .usual "runtime"

/-- A program that jumps over an assignment, and greets in a subroutine. -/
def Program.greeting : Program where
  symbols := ⟨["x"]⟩
  body :=
    [.goto "start" default, .assign (.variable "x") (.text "lost") default,
      .label "start" default, .callSub "greet" default,
      .sub "greet"
        [.assign (.variable "x") (.text "hello") default,
          .call "Console" "Write" [.variable "x"] default] default]

/-- The tables of the greeting. -/
def Program.greetingTables : Tables :=
  match Tables.ofProgram .console greeting with
  | .ok t => t
  | .error _ => .empty

def Program.greetingCodes : List Code :=
  match Setting.lowerProgram ⟨.console, greetingTables⟩ greeting with
  | .ok codes => codes
  | .error _ => []

def Program.greetingModule : Module :=
  greetingTables.layout greetingCodes (.ofTables greetingTables "")

theorem Program.fits_greeting : greeting.Fits Host.console.registry where
  slots := by decide
  subroutines := by decide
  texts := by decide +kernel

theorem Program.check_greeting : greeting.check Host.console.registry = [] := by decide +kernel

theorem Program.emitted_greeting :
    Tables.ofProgram .console greeting = .ok greetingTables ∧
      Setting.lowerProgram ⟨.console, greetingTables⟩ greeting = .ok greetingCodes := by
  obtain ⟨t, codes, ht, hcodes⟩ := (check_eq_nil_iff.mp check_greeting).emits fits_greeting
  -- The equations of the definitions would have to run both walks, so only names are replaced.
  obtain rfl : greetingTables = t := by
    delta greetingTables
    rw [ht]
  refine ⟨ht, ?_⟩
  delta greetingCodes
  rw [hcodes]

theorem Program.module_greeting : Host.console.module .greeting "" = .ok greetingModule := by
  rw [Host.module, emitted_greeting.1, ok_bind, emitted_greeting.2, ok_bind]
  rfl

theorem Program.emits_greeting :
    greeting.Fits Host.console.registry ∧ greeting.check Host.console.registry = [] ∧
      ∃ tables codes, Tables.ofProgram .console greeting = .ok tables ∧
        Setting.lowerProgram ⟨.console, tables⟩ greeting = .ok codes :=
  ⟨fits_greeting, check_greeting,
    (check_eq_nil_iff_emits .console greeting fits_greeting).mp check_greeting⟩

end ScriptWasm
