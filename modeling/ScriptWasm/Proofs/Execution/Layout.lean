import ScriptWasm.Proofs.Emission.Imports
import ScriptWasm.Proofs.Execution.Machine

/-!
# What is found in a module

Tables and code are laid out in sections. Here it is shown what comes out of the sections again: the
functions behind indices, the types of imports, and the bytes of texts at the places that code has
for them.
-/

namespace ScriptWasm

open Wasm

/-! ## Reading modules -/

namespace Wasm.Module

/-- The type of an imported function. -/
def importType? (m : Module) (source : ImportRef) : Option FuncType := do
  let i ← m.imports.find? fun i ↦ i.module = source.module ∧ i.field = source.field
  match i.type with
  | .function t => m.signature? t
  | _ => none

/-- The byte that segments put into memory at an address. -/
def byteAt? (m : Module) (address : Nat) : Option UInt8 :=
  m.data.findSome? fun d ↦ match d.mode with
    | .active 0 [.i32Const start] =>
      if start.toNat ≤ address then d.bytes[address - start.toNat]? else none
    | _ => none

/-- A text lies at a place in memory. -/
structure HoldsText (m : Module) (text : String) (e : Extent) : Prop where
  start : e.start < UInt32.size
  length : e.length < UInt32.size
  size : e.length = (bytesOf text).length
  bytes : ∀ i < e.length, m.byteAt? (e.start + i) = (bytesOf text)[i]?

end Wasm.Module

/-- The module of a program is laid out from its tables and its code. -/
theorem Host.module_eq_ok_iff {h : Host} {p : Program} {source : String} {md : Module} :
    h.module p source = .ok md ↔ ∃ t codes, Tables.ofProgram h p = .ok t ∧
      Setting.lowerProgram ⟨h, t⟩ p = .ok codes ∧
      t.layout codes (.ofTables t source) = md := by
  simp only [Host.module, bind_eq_ok_iff, pure_eq_ok_iff]
  constructor
  · rintro ⟨t, ht, codes, hcodes, heq⟩
    exact ⟨t, codes, ht, hcodes, heq⟩
  · rintro ⟨t, codes, ht, hcodes, heq⟩
    exact ⟨t, ht, codes, hcodes, heq⟩

namespace Tables

variable {t : Tables} {codes : List Code} {metadata : Metadata}

/-! ## Sections -/

/-- What is collected from the sections that are always there. -/
theorem flatMap_layout {α : Type} {f : Section → List α}
    (hcustom : ∀ name bytes, f (.custom name bytes) = [])
    (helements : ∀ es, f (.elements es) = []) (hdata : ∀ ds, f (.data ds) = []) :
    (t.layout codes metadata).flatMap f =
      f (.types (t.signatures.map FuncType.group)) ++ f t.importSection ++ f t.functionSection ++
        f t.tableSection ++ f t.memorySection ++ f t.globalSection ++ f t.exportSection ++
        f (.code codes) := by
  have hes : t.elementSections.flatMap f = [] := by
    rw [elementSections]
    split <;> simp [helements]
  have hds : t.dataSections.flatMap f = [] := by
    rw [dataSections]
    split <;> simp [hdata]
  have hname : f t.nameSection = [] := hcustom _ _
  simp [layout, hes, hds, hname, hcustom]

theorem typeGroups_layout :
    (t.layout codes metadata).typeGroups = t.signatures.map FuncType.group := by
  rw [Module.typeGroups, flatMap_layout (fun _ _ ↦ rfl) (fun _ ↦ rfl) fun _ ↦ rfl]
  simp [importSection, functionSection, tableSection, memorySection, globalSection, exportSection]

theorem imports_layout :
    (t.layout codes metadata).imports =
      t.imports.map fun e ↦ ⟨e.source.module, e.source.field, .function e.signature⟩ := by
  rw [Module.imports, flatMap_layout (fun _ _ ↦ rfl) (fun _ ↦ rfl) fun _ ↦ rfl]
  simp [importSection, functionSection, tableSection, memorySection, globalSection, exportSection]

theorem functions_layout :
    (t.layout codes metadata).functions = List.replicate (t.subroutines.length + 1) 0 := by
  rw [Module.functions, flatMap_layout (fun _ _ ↦ rfl) (fun _ ↦ rfl) fun _ ↦ rfl]
  simp [importSection, functionSection, tableSection, memorySection, globalSection, exportSection]

theorem codes_layout : (t.layout codes metadata).codes = codes := by
  rw [Module.codes, flatMap_layout (fun _ _ ↦ rfl) (fun _ ↦ rfl) fun _ ↦ rfl]
  rfl

theorem exports_layout : (t.layout codes metadata).exports =
    [⟨Layout.entry, .function, t.function .entry⟩, ⟨Layout.memory, .memory, 0⟩,
      ⟨Layout.handlers, .table, 0⟩] := by
  rw [Module.exports, flatMap_layout (fun _ _ ↦ rfl) (fun _ ↦ rfl) fun _ ↦ rfl]
  rfl

theorem elements_layout : (t.layout codes metadata).elements =
    if t.subroutines.isEmpty then []
    else [⟨.active 0 [.i32Const 0], .functions ((List.range t.subroutines.length).map fun i ↦
      t.function (.subroutine i))⟩] := by
  simp only [Module.elements, layout, elementSections, dataSections, List.flatMap_append]
  split <;> split <;> simp [importSection, functionSection, tableSection, memorySection,
    globalSection, exportSection, nameSection, Wasm.nameSection]

theorem data_layout : (t.layout codes metadata).data =
    if t.data.isEmpty then []
    else [⟨.active 0 [.i32Const (UInt32.ofNat dataStart)], t.data⟩] := by
  simp only [Module.data, layout, elementSections, dataSections, List.flatMap_append]
  split <;> split <;> simp [importSection, functionSection, tableSection, memorySection,
    globalSection, exportSection, nameSection, Wasm.nameSection]

/-! ## Functions -/

theorem signature?_layout (i : Nat) :
    (t.layout codes metadata).signature? i = t.signatures[i]? := by
  have hflat : (t.signatures.map FuncType.group).flatten =
      t.signatures.map fun type ↦ ⟨true, none, .func type⟩ := by
    rw [← List.flatMap_def, List.map_eq_flatMap]
    rfl
  rw [Module.signature?, typeGroups_layout, hflat, List.getElem?_map]
  cases t.signatures[i]? <;> rfl

/-- Imports have the types that the tables have for them. -/
theorem importType?_layout (source : ImportRef) :
    (t.layout codes metadata).importType? source = t.importType? source := by
  have hnames (e : ImportEntry) : (e.source.module = source.module ∧
      e.source.field = source.field) ↔ e.source = source := by
    cases e.source
    cases source
    simp
  have hfind : (t.layout codes metadata).imports.find?
      (fun i ↦ i.module = source.module ∧ i.field = source.field) =
      (t.imports.find? (·.source = source)).map
        fun e ↦ ⟨e.source.module, e.source.field, .function e.signature⟩ := by
    rw [imports_layout, List.find?_map]
    simp only [Function.comp_def, hnames]
  rw [Module.importType?, hfind, importType?]
  cases t.imports.find? (·.source = source) with
  | none => rfl
  | some e => exact signature?_layout e.signature

/-- The functions of a module are its imports, and then its routines. -/
theorem callees_layout : (t.layout codes metadata).callees =
    (t.imports.map fun e ↦ t.signatures[e.signature]?.map (.host e.source)) ++
      ((List.replicate (t.subroutines.length + 1) 0).zip codes).map fun (i, code) ↦
        t.signatures[i]?.map (.code · code) := by
  rw [Module.callees, imports_layout, functions_layout, codes_layout, List.filterMap_map]
  simp only [signature?_layout]
  exact congrArg (· ++ _) (congrFun List.filterMap_eq_map t.imports)

theorem find?_of_importIndex? {source : ImportRef} {i : Nat} (h : t.importIndex? source = some i) :
    ∃ e, t.imports[i]? = some e ∧ e.source = source ∧
      t.imports.find? (·.source = source) = some e := by
  rw [importIndex?, List.findIdx?_eq_some_iff_getElem] at h
  obtain ⟨hlt, hsource, hbefore⟩ := h
  exact ⟨t.imports[i], List.getElem?_eq_getElem hlt, of_decide_eq_true hsource,
    List.find?_eq_some_iff_getElem.mpr ⟨hsource, i, hlt, rfl, by simpa using hbefore⟩⟩

theorem callee?_import {σ : Type} (e : Embedder σ) {source : ImportRef} {i : Nat} {type : FuncType}
    (hi : t.importIndex? source = some i) (htype : t.importType? source = some type) :
    ((t.layout codes metadata).link e).callee? i = some (.host source type) := by
  obtain ⟨entry, hentry, rfl, hfind⟩ := find?_of_importIndex? hi
  rw [importType?, hfind, Option.bind_some] at htype
  have hlt := (List.getElem?_eq_some_iff.mp hentry).1
  rw [Module.callee?_link, callees_layout, List.getElem?_append_left (by rwa [List.length_map]),
    List.getElem?_map, hentry, Option.map_some, htype]
  rfl

theorem callee?_routine {σ : Type} (e : Embedder σ) {routine : Routine} {code : Code}
    (hfirst : t.signatures[0]? = some ⟨[], []⟩)
    (hcode : codes[routine.position]? = some code)
    (hcount : routine.position ≤ t.subroutines.length) :
    ((t.layout codes metadata).link e).callee? (t.function routine) =
      some (.code ⟨[], []⟩ code) := by
  have hzero : (List.replicate (t.subroutines.length + 1) 0)[routine.position]? = some 0 := by
    rw [List.getElem?_replicate, if_pos (Nat.lt_succ_of_le hcount)]
  have hzip : ((List.replicate (t.subroutines.length + 1) 0).zip codes)[routine.position]? =
      some (0, code) := List.getElem?_zip_eq_some.mpr ⟨hzero, hcode⟩
  rw [Module.callee?_link, callees_layout, function, List.getElem?_append_right (by simp),
    List.length_map, Nat.add_sub_cancel_left, List.getElem?_map, hzip, Option.map_some]
  simp only [hfirst, Option.map_some, Option.join_some]

/-! ## Texts -/

theorem length_toList_loop (bytes : ByteArray) (i : Nat) (seen : List UInt8) :
    (ByteArray.toList.loop bytes i seen).length = seen.length + (bytes.size - i) := by
  fun_induction ByteArray.toList.loop bytes i seen with
  | case1 i seen h ih =>
    rw [ih, List.length_cons]
    omega
  | case2 i seen h =>
    rw [List.length_reverse]
    omega

theorem length_bytesOf (text : String) : (bytesOf text).length = text.utf8ByteSize := by
  rw [bytesOf, ByteArray.toList, length_toList_loop, List.length_nil, Nat.zero_add]
  rfl

/-- Texts lie one after the other, from an address on. -/
def LaidOut : (start : Nat) → List TextEntry → Prop
  | _, [] => True
  | start, e :: rest =>
    e.extent = ⟨start, (bytesOf e.text).length⟩ ∧ LaidOut (start + (bytesOf e.text).length) rest

theorem laidOut_append {start : Nat} {texts : List TextEntry} {e : TextEntry} :
    LaidOut start (texts ++ [e]) ↔ LaidOut start texts ∧
      e.extent = ⟨start + (texts.flatMap fun e ↦ bytesOf e.text).length,
        (bytesOf e.text).length⟩ := by
  induction texts generalizing start with
  | nil => simp [LaidOut]
  | cons first rest ih =>
    rw [List.cons_append, LaidOut, LaidOut, ih, List.flatMap_cons, List.length_append,
      ← Nat.add_assoc, and_assoc]

theorem LaidOut.dataSize_eq {start : Nat} {texts : List TextEntry} (h : LaidOut start texts) :
    texts.foldr (fun e n ↦ e.extent.length + n) 0 =
      (texts.flatMap fun e ↦ bytesOf e.text).length := by
  induction texts generalizing start with
  | nil => rfl
  | cons first rest ih =>
    rw [List.foldr_cons, ih h.2, h.1, List.flatMap_cons, List.length_append]

/-- The bytes of a text are found where it lies. -/
theorem LaidOut.getElem?_data {start : Nat} {texts : List TextEntry} (h : LaidOut start texts)
    {e : TextEntry} (he : e ∈ texts) :
    start ≤ e.extent.start ∧ e.extent.length = (bytesOf e.text).length ∧
      ∀ i < e.extent.length, (texts.flatMap fun e ↦ bytesOf e.text)[e.extent.start - start + i]? =
        (bytesOf e.text)[i]? := by
  induction texts generalizing start with
  | nil => cases he
  | cons first rest ih =>
    rw [List.flatMap_cons]
    cases he with
    | head =>
      rw [h.1]
      refine ⟨Nat.le_refl _, rfl, fun i hi ↦ ?_⟩
      rw [Nat.sub_self, Nat.zero_add, List.getElem?_append_left hi]
    | tail _ he =>
      obtain ⟨hle, hlength, hbytes⟩ := ih h.2 he
      refine ⟨by omega, hlength, fun i hi ↦ ?_⟩
      rw [← hbytes i hi, List.getElem?_append_right (by omega)]
      congr 1
      omega

/-- Every text has a place of its own, which can be written as words. -/
structure PlacesTexts (t : Tables) : Prop where
  laidOut : LaidOut dataStart t.texts
  start : ∀ e ∈ t.texts, e.extent.start < indexLimit
  length : ∀ e ∈ t.texts, e.extent.length < indexLimit

theorem PlacesTexts.meet {q q' : Tables × Routine} {d : Demand} (ht : q.1.PlacesTexts)
    (h : Meets q d q') : q'.1.PlacesTexts := by
  cases h with
  | @newText t _ contents _ hstart hlength =>
    refine ⟨laidOut_append.mpr ⟨ht.laidOut, ?_⟩, ?_, ?_⟩
    · rw [length_bytesOf, dataSize, ht.laidOut.dataSize_eq]
    · exact List.forall_mem_append.mpr ⟨ht.start, by simpa using hstart⟩
    · exact List.forall_mem_append.mpr ⟨ht.length, by simpa using hlength⟩
  | _ => exact ⟨ht.laidOut, ht.start, ht.length⟩

theorem PlacesTexts.meetAll {ds : List Demand} {q q' : Tables × Routine} (ht : q.1.PlacesTexts)
    (h : meetAll q ds = .ok q') : q'.1.PlacesTexts :=
  meetAll_induction (fun _ q ↦ q.1.PlacesTexts) (fun hq hd ↦ hq.meet (meets_of_meet hd)) ht h

theorem byteAt?_layout (i : Nat) :
    (t.layout codes metadata).byteAt? (dataStart + i) = t.data[i]? := by
  rw [Module.byteAt?, data_layout]
  split
  · rename_i hempty
    rw [List.isEmpty_iff.mp hempty]
    rfl
  · simp [dataStart]

/-- Code has the right places for texts. -/
theorem PlacesTexts.holdsText (ht : t.PlacesTexts) {text : String} {e : Extent}
    (he : t.textExtent? text = some e) : (t.layout codes metadata).HoldsText text e := by
  obtain ⟨entry, hentry, rfl⟩ := Option.map_eq_some_iff.mp he
  have hmem := List.mem_of_find?_eq_some hentry
  obtain rfl : entry.text = text := by simpa using List.find?_some hentry
  obtain ⟨hle, hlength, hbytes⟩ := ht.laidOut.getElem?_data hmem
  refine ⟨ht.start entry hmem, ht.length entry hmem, hlength, fun i hi ↦ ?_⟩
  have haddress : entry.extent.start + i = dataStart + (entry.extent.start - dataStart + i) := by
    omega
  rw [haddress, byteAt?_layout]
  exact hbytes i hi

end Tables

end ScriptWasm
