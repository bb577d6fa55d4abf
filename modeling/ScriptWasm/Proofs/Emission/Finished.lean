import ScriptWasm.Proofs.Emission.Declarations
import ScriptWasm.Proofs.Emission.Resolution

/-!
# The finished tables of a program

When the first walk over a whole program is done, the tables are known well enough to forget the
walk: slots, subroutines and labels are those that are written in the program, operations are
imported, and whatever the program demands can be looked up. The walk gets there exactly if the
program is admitted and declares nothing twice, as long as its counts fit in a word.
-/

namespace ScriptWasm

open Wasm

namespace Tables

variable {h : Host} {p : Program} {t : Tables}

/-- Tables that hold imports and signatures only. -/
structure IsBlank (t : Tables) : Prop where
  slots : t.slots = []
  subroutines : t.subroutines = []
  labels : t.labels = [[]]
  texts : t.texts = []

theorem IsBlank.addImport (ht : t.IsBlank) (source : ImportRef) (type : FuncType) :
    (t.addImport source type).2.IsBlank := by
  cases hi : t.importIndex? source with
  | some i => rwa [addImport_of_known hi]
  | none =>
    obtain ⟨signature, signatures, hnew, -⟩ := addImport_of_new hi type
    rw [hnew]
    exact ⟨ht.slots, ht.subroutines, ht.labels, ht.texts⟩

theorem isBlank_start (operators : Bindings) : (start operators).IsBlank := by
  have hfold : ∀ (handles : List Handle) (t : Tables), t.IsBlank →
      (handles.foldl (fun t h ↦ (t.addImport h.source h.signature).2) t).IsBlank := by
    intro handles
    induction handles with
    | nil => exact fun t ht ↦ ht
    | cons h rest ih => exact fun t ht ↦ ih _ (ht.addImport h.source h.signature)
  exact hfold _ _ ⟨rfl, rfl, rfl, rfl⟩

/-- Tables with slots of the given names. -/
def withSlots (t : Tables) (names : List String) : Tables := { t with slots := names }

theorem importIndex?_withSlots (t : Tables) (names : List String) (source : ImportRef) :
    (t.withSlots names).importIndex? source = t.importIndex? source := rfl

theorem IsBlank.declared_withSlots (ht : t.IsBlank) (names : List String) :
    declared (t.withSlots names, .entry) = ([], [[]], .entry) := by
  rw [declared, withSlots, ht.subroutines, ht.labels]

theorem IsBlank.holdsTexts_withSlots (ht : t.IsBlank) (names : List String)
    (texts : Finset String) : (t.withSlots names).HoldsTexts texts := by
  have htexts : (t.withSlots names).texts = [] := ht.texts
  exact ⟨by rw [htexts]; exact .nil, by rw [htexts]; nofun, by rw [htexts]; nofun⟩

theorem IsBlank.allocateSlots_eq_ok_iff (ht : t.IsBlank) {symbols : SymbolTable} {t' : Tables} :
    t.allocateSlots symbols = .ok t' ↔
      symbols.names.length ≤ indexLimit ∧ t.withSlots symbols.names = t' := by
  rw [allocateSlots, ht.slots, List.length_nil, Nat.zero_add, List.nil_append]
  split
  · rename_i hle
    simp [hle, withSlots]
  · rename_i hle
    simp [hle]

/-- The first walk over a program starts with a slot for each of its names. -/
theorem ofProgram_eq_ok_iff :
    ofProgram h p = .ok t ↔ p.symbols.names.length ≤ indexLimit ∧
      h.registry.AdmitsStmts .entry p.body ∧
      meetAll ((start h.operators).withSlots p.symbols.names, .entry)
        (h.registry.stmtsDemands p.body) = .ok (t, .entry) := by
  simp only [ofProgram, bind_eq_ok_iff, (isBlank_start h.operators).allocateSlots_eq_ok_iff,
    prepareStmts_eq_ok_iff]
  constructor
  · rintro ⟨_, ⟨hle, rfl⟩, ha, hm⟩
    exact ⟨hle, ha, hm⟩
  · rintro ⟨hle, ha, hm⟩
    exact ⟨_, ⟨hle, rfl⟩, ha, hm⟩

/-- What is known of the tables when the first walk is done. -/
structure IsFinished (h : Host) (p : Program) (t : Tables) : Prop where
  admitted : h.registry.AdmitsStmts .entry p.body
  slots : t.slots = p.symbols.names
  subroutines : t.subroutines = subroutineNames p.body
  labels : t.labels = labelNames p.body :: (topSubroutines p.body).map fun s ↦ labelNames s.2
  operators : ∀ op, ∃ i, t.importIndex? (h.operators.handle op).source = some i
  provides : t.ProvidesAll (h.registry.stmtsDemands p.body)

theorem isFinished_of_ofProgram (ht : ofProgram h p = .ok t) : t.IsFinished h p := by
  obtain ⟨-, ha, hm⟩ := ofProgram_eq_ok_iff.mp ht
  have hgrown := extends_meetAll hm
  have hdeclared := declared_meetAll_entry ha
    ((isBlank_start h.operators).declared_withSlots _) rfl hm
  simp only [declared, Prod.mk.injEq, List.nil_append] at hdeclared
  exact
    { admitted := ha
      slots := hgrown.slots
      subroutines := hdeclared.1
      labels := hdeclared.2.1
      operators := fun op ↦ by
        obtain ⟨i, hi⟩ := importIndex?_start h.operators op
        rw [← importIndex?_withSlots _ p.symbols.names] at hi
        exact ⟨i, hgrown.importIndex? hi⟩
      provides := fun d hd ↦ provides_of_meetAll hm hd }

namespace IsFinished

theorem labelsOf_entry (ht : t.IsFinished h p) : t.labelsOf .entry = labelNames p.body := by
  rw [labelsOf, ht.labels]
  rfl

theorem labelsOf_subroutine (ht : t.IsFinished h p) {i : Nat} {s : String × List Stmt}
    (hs : (topSubroutines p.body)[i]? = some s) :
    t.labelsOf (.subroutine i) = labelNames s.2 := by
  simp [labelsOf, ht.labels, Routine.position, hs]

theorem isFor (ht : t.IsFinished h p) : Setting.IsFor ⟨h, t⟩ (p.names h.registry) where
  operators := ht.operators
  registry := rfl
  slots := ht.slots
  subroutines name := by rw [ht.subroutines, Program.names]

end IsFinished

end Tables

/-! ## When the first walk succeeds -/

namespace Program

/-- The different texts that a program holds. -/
def texts (r : Registry) (p : Program) : Finset String :=
  ((r.stmtsDemands p.body).filterMap fun | .text s => some s | _ => none).toFinset

/-- The counts of a program fit in a word: its slots, its subroutines and the bytes of its texts. -/
structure Fits (r : Registry) (p : Program) : Prop where
  slots : p.symbols.names.length ≤ Tables.indexLimit
  subroutines : (topSubroutines p.body).length ≤ Tables.indexLimit
  texts : Tables.HasRoom (p.texts r)

theorem mem_texts {r : Registry} {p : Program} {text : String} :
    text ∈ p.texts r ↔ .text text ∈ r.stmtsDemands p.body := by
  rw [texts, List.mem_toFinset, List.mem_filterMap]
  refine ⟨?_, fun h ↦ ⟨.text text, h, rfl⟩⟩
  rintro ⟨d, hd, heq⟩
  split at heq
  · cases heq
    exact hd
  · cases heq

end Program

theorem Tables.ofProgram_succeedsIff {h : Host} {p : Program} (hfits : p.Fits h.registry) :
    SucceedsIff (ofProgram h p)
      (h.registry.AdmitsStmts .entry p.body ∧ (subroutineNames p.body).Nodup ∧
        (labelNames p.body).Nodup ∧ ∀ s ∈ topSubroutines p.body, (labelNames s.2).Nodup) := by
  have hstart := isBlank_start h.operators
  have hwalk (ha : h.registry.AdmitsStmts .entry p.body) := exists_meetAll_entry_iff hfits.texts ha
    (hstart.declared_withSlots p.symbols.names) rfl (hstart.holdsTexts_withSlots _ _)
    (fun _ ↦ Program.mem_texts.mpr) .nil .nil (by simpa using hfits.subroutines)
  simp only [List.nil_append] at hwalk
  constructor
  · rintro ⟨t, ht⟩
    obtain ⟨-, ha, hm⟩ := ofProgram_eq_ok_iff.mp ht
    exact ⟨ha, (hwalk ha).mp ⟨_, hm⟩⟩
  · rintro ⟨ha, hnodup⟩
    obtain ⟨⟨t, routine⟩, hm⟩ := (hwalk ha).mpr hnodup
    have hdeclared := declared_meetAll_entry ha (hstart.declared_withSlots _) rfl hm
    obtain rfl : routine = .entry := congrArg (·.2.2) hdeclared
    exact ⟨t, ofProgram_eq_ok_iff.mpr ⟨hfits.slots, ha, hm⟩⟩

end ScriptWasm
