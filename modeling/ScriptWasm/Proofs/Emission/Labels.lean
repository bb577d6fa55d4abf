import ScriptWasm.Proofs.Emission.Finished

/-!
# Numbers of labels

The first walk gives every label a number when it comes to it, and counts anew in every routine: the
body of a subroutine is walked in the middle of the routine around it, which goes on counting where
it was. The second walk does not look at these numbers when it cuts a routine into segments. Still
the number of a label is that of the segment that begins behind it.
-/

namespace ScriptWasm

/-! ## Cutting at a label -/

theorem segments_append_label (before : List Stmt) (name : String) (span : Span)
    (rest : List Stmt) :
    segments (before ++ .label name span :: rest) = segments before ++ segments rest := by
  induction before with
  | nil => rfl
  | cons s others ih =>
    cases hs : s.labelName? with
    | some label =>
      obtain ⟨span', rfl⟩ := Stmt.eq_label hs
      rw [List.cons_append, segments, segments, ih, List.cons_append]
    | none =>
      obtain ⟨first, parts, hparts⟩ := List.exists_cons_of_ne_nil (segments_ne_nil others)
      have hall : segments (others ++ .label name span :: rest) =
          first :: (parts ++ segments rest) := by
        rw [ih, hparts, List.cons_append]
      rw [List.cons_append, segments_cons_of_none hs hall, segments_cons_of_none hs hparts,
        List.cons_append]

namespace Tables

variable {h : Host} {p : Program} {t t₀ t₁ : Tables} {routine : Routine} {body : List Stmt}

/-! ## The walk over a routine -/

/-- The first walk comes to the body of a routine with these tables: at once to that of the program,
and to that of a subroutine when it has declared it. -/
inductive Enters (h : Host) (p : Program) : Routine → List Stmt → Tables → Prop
  | entry {t : Tables} (slots : (start h.operators).allocateSlots p.symbols = .ok t) :
      Enters h p .entry p.body t
  | subroutine {t t₁ t₂ : Tables} {before after body : List Stmt} {name : String} {span : Span}
      {index : Nat} (slots : (start h.operators).allocateSlots p.symbols = .ok t)
      (split : p.body = before ++ .sub name body span :: after)
      (walked : t.prepareStmts h (.top .entry) before = .ok t₁)
      (declared : t₁.declareSubroutine name = .ok (index, t₂)) :
      Enters h p (.subroutine index) body t₂

theorem prepareStmts_append {place : Place} {before rest : List Stmt} {t' : Tables} :
    t.prepareStmts h place (before ++ rest) = .ok t' ↔
      ∃ t₁, t.prepareStmts h place before = .ok t₁ ∧ t₁.prepareStmts h place rest = .ok t' := by
  induction before generalizing t with
  | nil => simp [prepareStmts, pure_eq_ok_iff]
  | cons s others ih =>
    simp only [List.cons_append, prepareStmts, bind_eq_ok_iff, ih]
    constructor
    · rintro ⟨t₁, hs, t₂, hothers, hrest⟩
      exact ⟨t₂, ⟨t₁, hs, hothers⟩, hrest⟩
    · rintro ⟨t₂, ⟨t₁, hs, hothers⟩, hrest⟩
      exact ⟨t₁, hs, t₂, hothers, hrest⟩

theorem declareSubroutine_eq_ok_iff {name : String} {r : Nat × Tables} :
    t.declareSubroutine name = .ok r ↔ name ∉ t.subroutines ∧
      t.subroutines.length < indexLimit ∧ (t.subroutines.length,
        { t with subroutines := t.subroutines ++ [name], labels := t.labels ++ [[]] }) = r := by
  rw [declareSubroutine]
  by_cases hknown : name ∈ t.subroutines
  · simp [hknown]
  · by_cases hroom : t.subroutines.length < indexLimit <;> simp [hknown, hroom]

theorem declareLabel_eq_ok_iff {name : String} {r : Nat × Tables} :
    t.declareLabel routine name = .ok r ↔ name ∉ t.labelsOf routine ∧
      ((t.labelsOf routine).length + 1,
        { t with labels := t.labels.modify routine.position (· ++ [name]) }) = r := by
  rw [declareLabel]
  by_cases hknown : name ∈ t.labelsOf routine <;> simp [hknown]

/-- The tables of a program before the walk. -/
theorem declared_allocateSlots
    (hslots : (start h.operators).allocateSlots p.symbols = .ok t) :
    declared (t, .entry) = ([], [[]], .entry) := by
  have hblank := isBlank_start h.operators
  obtain ⟨-, rfl⟩ := hblank.allocateSlots_eq_ok_iff.mp hslots
  exact hblank.declared_withSlots p.symbols.names

/-- What has been declared when some statements of the program have been walked. -/
theorem declared_prepareStmts
    (hslots : (start h.operators).allocateSlots p.symbols = .ok t) {before : List Stmt}
    (hwalk : t.prepareStmts h (.top .entry) before = .ok t₁) :
    declared (t₁, .entry) = (subroutineNames before,
      labelNames before :: (topSubroutines before).map fun s ↦ labelNames s.2, .entry) := by
  obtain ⟨ha, hm⟩ := prepareStmts_eq_ok_iff.mp hwalk
  exact declared_meetAll_entry ha (declared_allocateSlots hslots) rfl hm

namespace Enters

/-- The body of a routine that is entered is walked to its end. -/
theorem prepareStmts (henter : Enters h p routine body t₀) (ht : ofProgram h p = .ok t) :
    ∃ t', t₀.prepareStmts h (.top routine) body = .ok t' := by
  rw [ofProgram, bind_eq_ok_iff] at ht
  obtain ⟨tslots, hslots, hwalk⟩ := ht
  cases henter with
  | entry slots =>
    cases hslots.symm.trans slots
    exact ⟨t, hwalk⟩
  | subroutine slots split walked declared =>
    cases hslots.symm.trans slots
    rw [split, prepareStmts_append] at hwalk
    obtain ⟨t₁, hbefore, hrest⟩ := hwalk
    cases hbefore.symm.trans walked
    simp only [Tables.prepareStmts, prepareStmt, bind_eq_ok_iff] at hrest
    obtain ⟨t₂, hsub, -⟩ := hrest
    have hplace : ¬((Place.top .entry).isNested || (Place.top .entry).routine ≠ .entry) = true :=
      nofun
    rw [if_neg hplace, bind_eq_ok_iff] at hsub
    obtain ⟨r, hr, hbody⟩ := hsub
    cases hr.symm.trans declared
    exact ⟨t₂, hbody⟩

/-- Behind some statements of a routine, the labels of the routine are those among them. -/
theorem labelsOf (henter : Enters h p routine body t₀) {before : List Stmt}
    (hwalk : t₀.prepareStmts h (.top routine) before = .ok t₁) :
    t₁.labelsOf routine = labelNames before := by
  cases henter with
  | entry slots =>
    have hlabels := congrArg (·.2.1) (declared_prepareStmts slots hwalk)
    simp only [declared] at hlabels
    rw [Tables.labelsOf, hlabels]
    rfl
  | subroutine slots split walked hdeclared =>
    have houter := declared_prepareStmts slots walked
    simp only [declared, Prod.mk.injEq] at houter
    obtain ⟨-, -, heq⟩ := declareSubroutine_eq_ok_iff.mp hdeclared
    cases heq
    obtain ⟨ha, hm⟩ := prepareStmts_eq_ok_iff.mp hwalk
    -- The labels of the new subroutine come behind those of all others.
    have hinner := declared_meetAll_subroutine ha
      (show declared (_, Routine.subroutine _) = (_, _ ++ [] :: [], _) from rfl)
      (by rw [Routine.position, houter.1, houter.2.1]; simp [subroutineNames]) hm
    have hlabels := congrArg (·.2.1) hinner
    simp only [declared] at hlabels
    rw [Tables.labelsOf, hlabels, Routine.position, houter.1, houter.2.1]
    simp [subroutineNames]

/-- In the end, the labels of a routine are those of its body. -/
theorem labelsOf_finished (henter : Enters h p routine body t₀) (ht : ofProgram h p = .ok t) :
    t.labelsOf routine = labelNames body := by
  have hfinished := isFinished_of_ofProgram ht
  cases henter with
  | entry slots => exact hfinished.labelsOf_entry
  | @subroutine _ _ _ before after _ name span index slots split walked hdeclared =>
    have hindex : index = (topSubroutines before).length := by
      have hnames := congrArg Prod.fst (declared_prepareStmts slots walked)
      simp only [declared] at hnames
      obtain ⟨-, -, heq⟩ := declareSubroutine_eq_ok_iff.mp hdeclared
      rw [← (Prod.mk.inj heq).1, hnames, subroutineNames, List.length_map]
    have hsub : (topSubroutines p.body)[index]? = some (name, body) := by
      have hsplit : topSubroutines p.body =
          topSubroutines before ++ (name, body) :: topSubroutines after := by
        rw [split, topSubroutines, List.filterMap_append]
        rfl
      rw [hsplit, hindex, List.getElem?_append_right (Nat.le_refl _), Nat.sub_self]
      rfl
    exact hfinished.labelsOf_subroutine hsub

end Enters

/-! ## Numbers and segments -/

/-- A label is declared with the number of the segment that begins behind it, and keeps the number.
-/
theorem Enters.numbers_label (henter : Enters h p routine body t₀) (ht : ofProgram h p = .ok t)
    {before rest : List Stmt} {name : String} {span : Span}
    (hbody : body = before ++ .label name span :: rest) :
    ∃ number t₁ t₂, t₀.prepareStmts h (.top routine) before = .ok t₁ ∧
      t₁.declareLabel routine name = .ok (number, t₂) ∧ t.label routine name = .ok number ∧
      (segments body).take number = segments before ∧
      (segments body).drop number = segments rest := by
  obtain ⟨t', hwalk⟩ := henter.prepareStmts ht
  rw [hbody, prepareStmts_append] at hwalk
  obtain ⟨t₁, hbefore, hlabel⟩ := hwalk
  simp only [Tables.prepareStmts, prepareStmt, bind_eq_ok_iff] at hlabel
  obtain ⟨t₂, hlabel, -⟩ := hlabel
  have hplace : ¬(Place.top routine).isNested = true := Bool.false_ne_true
  rw [if_neg hplace, bind_eq_ok_iff] at hlabel
  obtain ⟨⟨number, t₃⟩, hdeclare, -⟩ := hlabel
  rw [Place.top] at hdeclare
  obtain ⟨hnew, heq⟩ := declareLabel_eq_ok_iff.mp hdeclare
  rw [henter.labelsOf hbefore] at hnew heq
  obtain rfl : number = (segments before).length := by
    rw [← (Prod.mk.inj heq).1, length_segments]
  have hfound : (labelNames body).idxOf? name = some (labelNames before).length := by
    have hsplit : labelNames body = labelNames before ++ name :: labelNames rest := by
      rw [hbody, labelNames, List.filterMap_append]
      rfl
    have hnone : (labelNames before).idxOf? name = none := List.idxOf?_eq_none_iff.mpr hnew
    rw [List.idxOf?] at hnone ⊢
    rw [hsplit, List.findIdx?_append, hnone]
    simp [List.findIdx?_cons]
  refine ⟨_, t₁, t₃, hbefore, hdeclare, ?_, ?_, ?_⟩
  · rw [label, henter.labelsOf_finished ht, hfound, length_segments]
  · rw [hbody, segments_append_label, List.take_left]
  · rw [hbody, segments_append_label, List.drop_left]

end Tables

end ScriptWasm
