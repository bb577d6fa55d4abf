import ScriptWasm.Proofs.Program.RoundTrip
import ScriptWasm.Proofs.Typing.Contexts
import Mathlib.Data.Finset.Card

/-!
# Variables and their slots

A symbol table is meant to be a set with an order, and a slot of storage to be the position of its
variable in that order. Declaring a name keeps it so: a name that is there is not added. All tables
are built by declaring names one after the other, whether the names are given, collected from a body
or listed in a source. There is one exception. The form in which a program itself is written down
has the names of the table as they are, and reading it back takes them as they are, twice or not.

Nothing goes wrong if no name is listed twice. Otherwise the name has a position and a slot that
differ, because the position is that of the first occurrence and the slot that of the last, and the
module has more globals than there are variables.
-/

namespace ScriptWasm

open Wasm Json

namespace SymbolTable

/-! ## Where tables come from -/

/-- How a table comes about, and the names in it that were not declared one after the other but read
as they stood. -/
inductive Arises : List String → SymbolTable → Prop
  | empty : Arises [] .empty
  | ofNames (names : List String) : Arises [] (.ofNames names)
  | collect (body : List Stmt) : Arises [] (.collect body)
  | parse {source : SourceText} {p : Program} (h : (Program.parse source).1 = some p) :
    Arises [] p.symbols
  | read {text : String} {p : Program} (h : Json.read Program.form text = .ok p) :
    Arises p.symbols.names p.symbols
  | declare {listed : List String} {t : SymbolTable} (h : Arises listed t) (name : String) :
    Arises listed (t.declare name)

/-- Declaring a name makes no set of what is none. -/
theorem nodup_declare_iff {t : SymbolTable} {name : String} :
    (t.declare name).names.Nodup ↔ t.names.Nodup := by
  rw [declare]
  split
  · rfl
  · rename_i hnew
    have hnotMem : name ∉ t.names := by simpa [contains] using hnew
    simp only [List.nodup_append, List.nodup_singleton, List.mem_singleton]
    exact ⟨fun h ↦ h.1, fun h ↦ ⟨h, trivial, fun x hx y hy hxy ↦ hnotMem (hy ▸ hxy ▸ hx)⟩⟩

theorem nodup_foldl_declare {t : SymbolTable} (ht : t.names.Nodup) (names : List String) :
    (names.foldl declare t).names.Nodup := by
  induction names generalizing t with
  | nil => exact ht
  | cons name rest ih => exact ih (nodup_declare_iff.mpr ht)

mutual

theorem nodup_collectStmt {t : SymbolTable} (ht : t.names.Nodup) (s : Stmt) :
    (t.collectStmt s).names.Nodup := by
  match s with
  | .assign (.variable name) _ _ => exact nodup_declare_iff.mpr ht
  | .assign (.index array _) _ _ => exact nodup_declare_iff.mpr ht
  | .assign (.property ..) _ _ => exact ht
  | .assign (.event ..) _ _ => exact ht
  | .cond _ body arms otherwise _ =>
    exact nodup_collectBody (nodup_collectArms (nodup_collectBody ht body) arms) otherwise
  | .while _ body _ => exact nodup_collectBody ht body
  | .for name _ _ _ body _ => exact nodup_collectBody (nodup_declare_iff.mpr ht) body
  | .sub _ body _ => exact nodup_collectBody ht body
  | .call .. => exact ht
  | .goto .. => exact ht
  | .label .. => exact ht
  | .callSub .. => exact ht
  | .empty .. => exact ht

theorem nodup_collectBody {t : SymbolTable} (ht : t.names.Nodup) (body : List Stmt) :
    (t.collectBody body).names.Nodup := by
  match body with
  | [] => exact ht
  | s :: rest => exact nodup_collectBody (nodup_collectStmt ht s) rest

theorem nodup_collectArms {t : SymbolTable} (ht : t.names.Nodup) (arms : List Arm) :
    (t.collectArms arms).names.Nodup := by
  match arms with
  | [] => exact ht
  | .mk _ body :: rest => exact nodup_collectArms (nodup_collectBody ht body) rest

end

theorem nodup_declareAll (source : SourceText) (names : List String) {t : SymbolTable}
    (ht : t.names.Nodup) (found : List Diagnostic) :
    (Program.declareAll source names t found).1.names.Nodup := by
  induction names generalizing t found with
  | nil => exact ht
  | cons name rest ih =>
    rw [Program.declareAll]
    split
    · exact ih ht _
    · exact ih (nodup_declare_iff.mpr ht) _

theorem nodup_parse {source : SourceText} {p : Program} (h : (Program.parse source).1 = some p) :
    p.symbols.names.Nodup := by
  rw [Program.parse] at h
  split at h
  · cases h
  · split at h
    · cases h
      exact nodup_collectBody List.nodup_nil _
    · cases h
      exact nodup_declareAll source _ List.nodup_nil []

/-- A table is a set exactly if the names that were read as they stood are. -/
theorem Arises.nodup_iff {listed : List String} {t : SymbolTable} (h : Arises listed t) :
    t.names.Nodup ↔ listed.Nodup := by
  induction h with
  | empty => rfl
  | ofNames names => exact iff_of_true (nodup_foldl_declare List.nodup_nil names) List.nodup_nil
  | collect body => exact iff_of_true (nodup_collectBody List.nodup_nil body) List.nodup_nil
  | parse h => exact iff_of_true (nodup_parse h) List.nodup_nil
  | read h => rfl
  | declare h name ih => exact nodup_declare_iff.trans ih

/-- Any names can be listed, in any order and any number of times. -/
theorem arises_of_names (names : List String) : Arises names ⟨names⟩ := by
  let p : Program := ⟨⟨names⟩, []⟩
  have hreads : LawfulSource.Reads (R := Reader) Program.form p.toValue p := by
    refine LawfulSource.record (by simp [Member.needed]) ?_
    refine .needed (LawfulSource.list_map fun name _ ↦ LawfulSource.text name) ?_
    exact .needed (Stmt.reads_list fun s hs ↦ absurd hs List.not_mem_nil) .nil
  have hdepth : p.toValue.depth < maxLevels := by
    have hnames : itemsDepth (names.map .string) ≤ 0 := itemsDepth_map_le fun _ _ ↦ Nat.le_refl 0
    have hbody : itemsDepth (Stmt.toValues []) = 0 := rfl
    simp only [p, Program.toValue, Value.strings, Value.depth, membersDepth, maxLevels]
    omega
  have hread : Json.read Program.form p.toValue.write = .ok p := Reader.run_of_reads hreads hdepth
  exact .read hread

end SymbolTable

namespace Tables

/-! ## Positions and slots -/

variable {t : Tables} {names : List String} {name : String} {i : Nat}

theorem idxOf?_eq_some (h : names.idxOf? name = some i) :
    names[i]? = some name ∧ ∀ j, names[j]? = some name → i ≤ j := by
  rw [List.idxOf?, List.findIdx?_eq_some_iff_getElem] at h
  obtain ⟨hlt, hname, hbefore⟩ := h
  refine ⟨by rw [List.getElem?_eq_getElem hlt, beq_iff_eq.mp hname], fun j hj ↦ ?_⟩
  obtain ⟨hj, hjname⟩ := List.getElem?_eq_some_iff.mp hj
  refine Nat.le_of_not_lt fun hji ↦ hbefore j hji ?_
  rw [hjname, beq_self_eq_true]

theorem lastIndex?_eq_some (h : lastIndex? name names = some i) :
    names[i]? = some name ∧ ∀ j, names[j]? = some name → j ≤ i := by
  obtain ⟨k, hk, rfl⟩ := Option.map_eq_some_iff.mp h
  obtain ⟨hname, hbefore⟩ := idxOf?_eq_some hk
  obtain ⟨hlt, -⟩ := List.getElem?_eq_some_iff.mp hname
  rw [List.length_reverse] at hlt
  rw [List.getElem?_reverse hlt] at hname
  refine ⟨hname, fun j hj ↦ ?_⟩
  obtain ⟨hlt', -⟩ := List.getElem?_eq_some_iff.mp hj
  -- The index `j` as it is counted from the other end.
  have hback : names.length - 1 - (names.length - 1 - j) = j := by omega
  have hmirror : names.reverse[names.length - 1 - j]? = some name := by
    rw [List.getElem?_reverse (by omega), hback, hj]
  have hle := hbefore _ hmirror
  omega

/-- Every name has one index, seen from the front and from the back, exactly if none is there
twice. -/
theorem idxOf?_eq_lastIndex?_iff_nodup :
    (∀ name ∈ names, ∃ i, names.idxOf? name = some i ∧ lastIndex? name names = some i) ↔
      names.Nodup := by
  constructor
  · intro h
    rw [List.nodup_iff_getElem?_ne_getElem?]
    intro j k hjk hk heq
    -- The index of the name is not behind its first place and not in front of its last one.
    obtain ⟨i, hfirst, hlast⟩ := h names[k] (List.getElem_mem hk)
    have hk' : names[k]? = some names[k] := List.getElem?_eq_getElem hk
    have hij := (idxOf?_eq_some hfirst).2 j (heq.trans hk')
    have hki := (lastIndex?_eq_some hlast).2 k hk'
    omega
  · intro hnodup name hname
    obtain ⟨i, hi⟩ := Option.isSome_iff_exists.mp (List.isSome_idxOf?.mpr hname)
    obtain ⟨j, hj⟩ := Option.isSome_iff_exists.mp (lastIndex?_isSome_iff.mpr hname)
    have hjname := (lastIndex?_eq_some hj).1
    obtain ⟨hiname, hfirst⟩ := idxOf?_eq_some hi
    obtain ⟨hlt, -⟩ := List.getElem?_eq_some_iff.mp hjname
    have hij : i = j := by
      refine Nat.le_antisymm (hfirst j hjname) (Nat.le_of_not_lt fun h ↦ ?_)
      exact List.nodup_iff_getElem?_ne_getElem?.mp hnodup i j h hlt (hiname.trans hjname.symm)
    exact ⟨i, hi, hij ▸ hj⟩

theorem slot_eq_ok_iff : t.slot name = .ok i ↔ lastIndex? name t.slots = some i := by
  rw [slot]
  cases lastIndex? name t.slots <;> simp

theorem slot_of_notMem (h : name ∉ t.slots) :
    t.slot name = .error (.unresolved (.variable name)) := by
  have hnone : lastIndex? name t.slots = none := by
    rw [← Option.not_isSome_iff_eq_none, lastIndex?_isSome_iff]
    exact h
  rw [slot, hnone]

end Tables

/-- The module of a program has a global for each entry of the table. -/
theorem Host.length_globals_module {h : Host} {p : Program} {source : String} {md : Module}
    (hmodule : h.module p source = .ok md) : md.globals.length = p.symbols.names.length := by
  obtain ⟨t, codes, ht, -, rfl⟩ := Host.module_eq_ok_iff.mp hmodule
  rw [Tables.globals_layout, List.length_map, (Tables.isFinished_of_ofProgram ht).slots]

theorem SymbolTable.length_eq_card_iff (names : List String) :
    names.length = names.toFinset.card ↔ names.Nodup :=
  eq_comm.trans (Multiset.toFinset_card_eq_card_iff_nodup (m := (names : Multiset String)))

/-- A table is a set, the slots that are allocated from it are the positions in it and the globals
are as many as the variables, each exactly if no name was listed twice in a program that was read
back. A name that is not in the table never has a slot. -/
theorem SymbolTable.Arises.slots_follow_iff {listed : List String} {symbols : SymbolTable}
    (harises : Arises listed symbols) :
    (symbols.names.Nodup ↔ listed.Nodup) ∧
    (∀ operators, (∃ t, (Tables.start operators).allocateSlots symbols = .ok t) ↔
      symbols.names.length ≤ Tables.indexLimit) ∧
    (∀ {operators : Bindings} {t t' : Tables},
      (Tables.start operators).allocateSlots symbols = .ok t → t.Extends t' →
        ((∀ name ∈ symbols.names, ∃ i, symbols.position? name = some i ∧ t'.slot name = .ok i) ↔
          listed.Nodup) ∧
        ∀ name ∉ symbols.names, t'.slot name = .error (.unresolved (.variable name))) ∧
    ∀ {h : Host} {p : Program} {source : String} {md : Module}, p.symbols = symbols →
      h.module p source = .ok md →
        (md.globals.length = symbols.names.toFinset.card ↔ listed.Nodup) := by
  refine ⟨harises.nodup_iff, fun operators ↦ ?_, fun {operators t t'} ht hextends ↦ ?_,
    fun {h p source md} hp hmodule ↦ ?_⟩
  · simp only [(Tables.isBlank_start operators).allocateSlots_eq_ok_iff, exists_and_left,
      exists_eq', and_true]
  · obtain ⟨-, rfl⟩ := (Tables.isBlank_start operators).allocateSlots_eq_ok_iff.mp ht
    have hslots : t'.slots = symbols.names := hextends.slots
    constructor
    · simp only [Tables.slot_eq_ok_iff, hslots, position?]
      exact Tables.idxOf?_eq_lastIndex?_iff_nodup.trans harises.nodup_iff
    · intro name hname
      exact Tables.slot_of_notMem (hslots ▸ hname)
  · rw [Host.length_globals_module hmodule, hp, length_eq_card_iff, harises.nodup_iff]

theorem SymbolTable.declared_slots_follow :
    let symbols : SymbolTable := ⟨["x", "y", "z"]⟩
    Arises ["x", "y"] symbols ∧ symbols.names.Nodup ∧
      (∃ t, (Tables.start (.usual "runtime")).allocateSlots symbols = .ok t ∧
        (∀ name ∈ symbols.names, ∃ i, symbols.position? name = some i ∧ t.slot name = .ok i) ∧
        t.slot "w" = .error (.unresolved (.variable "w"))) ∧
      ∃ md, Host.console.module ⟨symbols, []⟩ "" = .ok md ∧ md.globals.length = 3 := by
  intro symbols
  have hlisted : ["x", "y"].Nodup := by decide
  have harises : Arises ["x", "y"] symbols := ((arises_of_names ["x", "y"]).declare "x").declare "z"
  obtain ⟨hnodup, hallocate, hslots, hglobals⟩ := harises.slots_follow_iff
  obtain ⟨t, ht⟩ := (hallocate (.usual "runtime")).mpr (by decide)
  obtain ⟨md, hmd⟩ : ∃ md, Host.console.module ⟨symbols, []⟩ "" = .ok md :=
    exists_of_isOk (by decide +kernel)
  refine ⟨harises, hnodup.mpr hlisted, ⟨t, ht, ?_, ?_⟩, md, hmd, ?_⟩
  · exact (hslots ht (.refl t)).1.mpr hlisted
  · exact (hslots ht (.refl t)).2 "w" (by decide)
  · exact (hglobals rfl hmd).mpr hlisted

/-- A program that is written down with a variable twice. -/
def Program.twiceText : String :=
  "\x7b\"variables\":[\"x\",\"x\"],\"body\":[\x7b\"stmt\":\"assign\"," ++
    "\"target\":\x7b\"variable\":\"x\"\x7d,\"value\":\x7b\"number\":1.0\x7d\x7d]\x7d"

/-- The variable has its position at the front and its slot behind it, and there are two globals for
the one variable. -/
theorem Program.twice_slots : ∃ p t md, Json.read Program.form twiceText = .ok p ∧
    ¬p.symbols.names.Nodup ∧ p.symbols.position? "x" = some 0 ∧
    Tables.ofProgram .console p = .ok t ∧ t.slot "x" = .ok 1 ∧
    Host.console.module p "" = .ok md ∧ md.globals.length = 2 := by
  have hread : ((Json.read Program.form twiceText).toOption.map fun p ↦
      (p.symbols.names, (Host.console.module p "").isOk)) = some (["x", "x"], true) := by
    decide +kernel
  cases hp : Json.read Program.form twiceText with
  | error f => simp [hp, Except.toOption] at hread
  | ok p =>
    simp only [hp, Except.toOption, Option.map_some, Option.some.injEq, Prod.mk.injEq] at hread
    obtain ⟨hnames, hok⟩ := hread
    obtain ⟨md, hmd⟩ := exists_of_isOk hok
    obtain ⟨t, codes, ht, -, -⟩ := Host.module_eq_ok_iff.mp hmd
    have hslots := (Tables.isFinished_of_ofProgram ht).slots
    refine ⟨p, t, md, rfl, ?_, ?_, ht, ?_, hmd, ?_⟩
    · rw [hnames]
      decide
    · rw [SymbolTable.position?, hnames]
      decide
    · rw [Tables.slot_eq_ok_iff, hslots, hnames]
      decide
    · rw [Host.length_globals_module hmd, hnames]
      rfl

end ScriptWasm
