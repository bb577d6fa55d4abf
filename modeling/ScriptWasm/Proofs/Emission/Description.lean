import ScriptWasm.Proofs.Execution.Preservation
import ScriptWasm.Proofs.Json.Reading
import ScriptWasm.Proofs.Lists
import ScriptWasm.Proofs.Typing.Contexts
import ScriptWasm.Proofs.Wasm.Names

/-!
# Modules describe themselves

The bytes of a module end with its metadata. Whoever has the bytes only can find it: sections are
cut where they were put together, the section of metadata is the only one of its name, and what is
written in it is read as it was. Names may hold any characters, since they are quoted. Indices are
words, because a valid module does not have more functions than that.

What is read describes the program: its names, its subroutines where the module has them, and the
library members that it uses, in the order of their first uses.
-/

namespace ScriptWasm

open Json Wasm

/-! ## Library members in the order of their uses -/

/-- The functions behind operations, in order. -/
def Bindings.sources (b : Bindings) : List ImportRef := b.handles.map Handle.source

/-- The function that a demand asks for. -/
def Demand.source? (d : Demand) : Option ImportRef := d.use?.map Prod.fst

/-- The library members that a program uses, in the order of their first uses. What stands for an
operation is not among them. -/
def Host.capabilities (h : Host) (p : Program) : List ImportRef :=
  (((h.registry.stmtsDemands p.body).filterMap Demand.source?).removeAll
    h.operators.sources).eraseDups

namespace Tables

variable {t : Tables} {operations members : List ImportRef}

/-- Imports come in the order of their first uses. Those behind the operations are capabilities. -/
structure Lists (t : Tables) (operations members : List ImportRef) : Prop where
  imports : t.imports.map ImportEntry.source = (operations ++ members).eraseDups
  capabilities : t.capabilities = (members.removeAll operations).eraseDups

namespace Lists

theorem importIndex?_isSome_iff_mem (ht : t.Lists operations members) {source : ImportRef} :
    (t.importIndex? source).isSome ↔ source ∈ operations ++ members := by
  rw [importIndex?_isSome_iff, ← List.mem_eraseDups, ← ht.imports, List.mem_map]

theorem notMem_of_new (ht : t.Lists operations members) {source : ImportRef}
    (hnew : t.importIndex? source = none) : source ∉ operations ++ members := by
  rw [← ht.importIndex?_isSome_iff_mem, hnew]
  exact nofun

/-- An operation is imported, unless it is already. -/
theorem addImport (ht : t.Lists operations []) (source : ImportRef) (type : FuncType) :
    (t.addImport source type).2.Lists (operations ++ [source]) [] := by
  have himports := ht.imports
  rw [List.append_nil] at himports
  cases hi : t.importIndex? source with
  | some i =>
    have hmem := ht.importIndex?_isSome_iff_mem.mp (Option.isSome_of_eq_some hi)
    rw [List.append_nil] at hmem
    rw [addImport_of_known hi]
    refine ⟨?_, ht.capabilities⟩
    rw [List.append_nil, eraseDups_concat_of_mem hmem, himports]
  | none =>
    obtain ⟨signature, signatures, heq, -⟩ := addImport_of_new hi type
    have hnew := ht.notMem_of_new hi
    rw [List.append_nil] at hnew
    rw [heq]
    refine ⟨?_, ht.capabilities⟩
    rw [List.append_nil, eraseDups_concat_of_notMem hnew, ← himports, List.map_append]
    rfl

theorem addImports (handles : List Handle) (ht : t.Lists operations []) :
    (handles.foldl (fun t h ↦ (t.addImport h.source h.signature).2) t).Lists
      (operations ++ handles.map Handle.source) [] := by
  induction handles generalizing t operations with
  | nil => simpa using ht
  | cons h rest ih =>
    have := ih (ht.addImport h.source h.signature)
    rwa [List.append_assoc, List.singleton_append] at this

/-- Only a demand for a function that is new adds to the imports, and then to the capabilities as
well. -/
theorem meet {q q' : Tables × Routine} {d : Demand} (ht : q.1.Lists operations members)
    (h : Meets q d q') : q'.1.Lists operations (members ++ d.source?.toList) := by
  cases h with
  | @knownFunction t r source type i hknown =>
    have hmem := ht.importIndex?_isSome_iff_mem.mp (Option.isSome_of_eq_some hknown)
    refine ⟨?_, ht.capabilities.trans (eraseDups_removeAll_concat_of_mem hmem).symm⟩
    refine ht.imports.trans (Eq.trans ?_ (congrArg _ (List.append_assoc ..)))
    exact (eraseDups_concat_of_mem hmem).symm
  | @newFunction t r source type signature signatures hnew =>
    have hnotMem := ht.notMem_of_new hnew
    have himports : (t.imports ++ [ImportEntry.mk source signature]).map ImportEntry.source =
        (operations ++ (members ++ [source])).eraseDups := by
      rw [← List.append_assoc, eraseDups_concat_of_notMem hnotMem, ← ht.imports, List.map_append]
      rfl
    have hcapabilities : t.capabilities ++ [source] =
        ((members ++ [source]).removeAll operations).eraseDups := by
      rw [eraseDups_removeAll_concat_of_notMem hnotMem, ← ht.capabilities]
    exact ⟨himports, hcapabilities⟩
  | _ => exact (List.append_nil members).symm ▸ ⟨ht.imports, ht.capabilities⟩

theorem meetAll {ds : List Demand} {q q' : Tables × Routine} (ht : q.1.Lists operations members)
    (h : meetAll q ds = .ok q') :
    q'.1.Lists operations (members ++ ds.filterMap Demand.source?) :=
  meetAll_collects (fun members t ↦ t.Lists operations members) Demand.source?
    (fun hq hd ↦ hq.meet (meets_of_meet hd)) ht h

theorem withSlots (ht : t.Lists operations members) (names : List String) :
    (t.withSlots names).Lists operations members := ⟨ht.imports, ht.capabilities⟩

end Lists

/-- The imports of a program are the operations, and then its capabilities. -/
theorem lists_of_ofProgram {h : Host} {p : Program} (ht : ofProgram h p = .ok t) :
    t.Lists h.operators.sources ((h.registry.stmtsDemands p.body).filterMap Demand.source?) := by
  obtain ⟨-, -, hm⟩ := ofProgram_eq_ok_iff.mp ht
  have hempty : (empty.addSignature ⟨[], []⟩).2.Lists [] [] := ⟨rfl, rfl⟩
  have hstart : (start h.operators).Lists h.operators.sources [] :=
    hempty.addImports h.operators.handles
  exact (hstart.withSlots p.symbols.names).meetAll hm

end Tables

/-! ## Metadata as JSON -/

/-- The indices of a subroutine are words. -/
def SubroutineEntry.Fits (e : SubroutineEntry) : Prop :=
  e.function < UInt32.size ∧ e.position < UInt32.size

section Forms

variable {R : Type → Type} [Source R] [LawfulSource R]

open LawfulSource

theorem ImportRef.reads_form (r : ImportRef) : Reads (R := R) ImportRef.form r.toValue r := by
  refine record (by simp [Member.needed]) ?_
  exact .needed (text _) <| .needed (text _) .nil

theorem SubroutineEntry.reads_form {e : SubroutineEntry} (he : e.Fits) :
    Reads (R := R) SubroutineEntry.form e.toValue e := by
  refine record (by simp [Member.needed]) ?_
  exact .needed (text _) <| .needed (word32 he.1) <| .needed (word32 he.2) .nil

theorem Metadata.reads_form {m : Metadata} (hm : ∀ e ∈ m.subroutines, e.Fits) :
    Reads (R := R) Metadata.form m.toValue m := by
  refine record (by simp [Member.needed]) ?_
  refine .needed (text _) <| .needed (text _) <| .needed (text _) ?_
  refine .needed (list_map fun name _ ↦ text name) ?_
  refine .needed (list_map fun e he ↦ SubroutineEntry.reads_form (hm e he)) ?_
  exact .needed (list_map fun r _ ↦ r.reads_form) <| .needed (text _) .nil

end Forms

theorem Metadata.depth_toValue (m : Metadata) : m.toValue.depth ≤ 3 := by
  have hslots : itemsDepth (m.slots.map .string) ≤ 0 := itemsDepth_map_le fun _ _ ↦ Nat.le_refl 0
  have hsubroutines : itemsDepth (m.subroutines.map SubroutineEntry.toValue) ≤ 1 :=
    itemsDepth_map_le fun _ _ ↦ Nat.le_refl 1
  have hcapabilities : itemsDepth (m.capabilities.map ImportRef.toValue) ≤ 1 :=
    itemsDepth_map_le fun _ _ ↦ Nat.le_refl 1
  simp only [Metadata.toValue, Value.strings, Value.depth, membersDepth]
  omega

theorem Metadata.ofBytes?_write {m : Metadata} (hm : ∀ e ∈ m.subroutines, e.Fits) :
    ofBytes? (bytesOf m.toValue.write) = some m := by
  have hread : Reader.run form (bytesOf m.toValue.write) = .ok m :=
    Reader.run_of_reads (reads_form hm) (Nat.lt_of_le_of_lt m.depth_toValue (by decide))
  rw [ofBytes?, hread]
  rfl

/-- The section of the names of a module is passed over. -/
theorem Metadata.ofModule?_of_customSections {bytes names : Bytes} {m : Metadata}
    (hm : ∀ e ∈ m.subroutines, e.Fits)
    (hsections : customSections bytes =
      [("name", names), (Layout.metadataSection, bytesOf m.toValue.write)]) :
    ofModule? bytes = some m := by
  have hother : "name" ≠ Layout.metadataSection := by decide
  rw [ofModule?, hsections]
  simp [hother, ofBytes?_write hm]

/-! ## Indices -/

/-- A valid module does not have many functions. -/
theorem Wasm.Module.length_functions_le_of_isValid {m : Module} (h : m.isValid) :
    m.importedFunctions.length + m.functions.length ≤ mostDefinitions := by
  rw [isValid] at h
  split at h
  · cases h
  · rename_i c hc
    simp only [context?, Option.bind_eq_bind, Option.bind_eq_some_iff, Option.pure_def,
      Option.some.injEq] at hc
    -- every function has an entry in the context, and the number of entries is checked
    obtain ⟨types, -, functions, hfunctions, tables, -, globals, -, tags, -, elements, -, rfl⟩ := hc
    have hlength := (mapM_eq_some hfunctions).1
    simp only [Bool.and_eq_true, isModest, decide_eq_true_eq] at h
    rw [← List.length_append, ← hlength]
    grind

namespace Tables

variable {h : Host} {p : Program} {t : Tables} {codes : List Code} {metadata : Metadata}

/-- In a valid module the indices of subroutines are words. -/
theorem fits_of_isValid (hvalid : (t.layout codes metadata).isValid) (source : String) :
    ∀ e ∈ (Metadata.ofTables t source).subroutines, e.Fits := by
  have hcount := Module.length_functions_le_of_isValid hvalid
  rw [importedFunctions_layout, functions_layout, List.length_map, List.length_replicate] at hcount
  have hmost : mostDefinitions < UInt32.size := by decide
  intro e he
  obtain ⟨⟨name, i⟩, hi, rfl⟩ := List.mem_map.mp he
  have hlt : i < t.subroutines.length := (List.mem_zipIdx' hi).1
  have hposition : i < UInt32.size := by omega
  have hfunction : t.imports.length + (i + 1) < UInt32.size := by omega
  exact ⟨hfunction, hposition⟩

/-! ## Sections -/

theorem nameSection_mem_layout :
    Wasm.nameSection Layout.container t.functionNames t.slotNames ∈ t.layout codes metadata :=
  List.mem_append_right _ List.mem_cons_self

/-- Functions and slots are numbered from zero on, and all of them have names. -/
theorem lt_length_of_mem_functionNames {e : Nat × String} (he : e ∈ t.functionNames) :
    e.1 < t.functionNames.length := by
  simp only [functionNames, List.length_append, List.length_cons, List.length_map,
    List.length_zipIdx]
  rcases List.mem_append.mp he with hfront | hback
  · obtain ⟨⟨entry, i⟩, hi, rfl⟩ := List.mem_map.mp hfront
    have hlt : i < t.imports.length := (List.mem_zipIdx' hi).1
    exact Nat.lt_add_right _ hlt
  · rcases List.mem_cons.mp hback with rfl | hback
    · simp [function, Routine.position]
    · obtain ⟨⟨name, i⟩, hi, rfl⟩ := List.mem_map.mp hback
      have hlt : i < t.subroutines.length := (List.mem_zipIdx' hi).1
      exact Nat.add_lt_add_left (Nat.add_lt_add_right hlt 1) _

theorem lt_length_of_mem_slotNames {e : Nat × String} (he : e ∈ t.slotNames) :
    e.1 < t.slotNames.length := by
  obtain ⟨⟨name, i⟩, hi, rfl⟩ := List.mem_map.mp he
  rw [slotNames, List.length_map, List.length_zipIdx]
  exact (List.mem_zipIdx' hi).1

/-- What a reader gets from the section of names, if it can be written. -/
theorem ofContents?_nameSection (hwritable : (t.layout codes metadata).isWritable) :
    ∃ contents, t.nameSection = .custom "name" contents ∧
      ModuleNames.ofContents? contents =
        some ⟨some Layout.container, t.functionNames, t.slotNames⟩ := by
  have hsize := of_decide_eq_true (List.all_eq_true.mp hwritable _ nameSection_mem_layout)
  have hparts := length_lt_of_mem_nameParts hsize
  simp only [nameParts, List.forall_mem_cons] at hparts
  obtain ⟨-, hfunctions, hslots, -⟩ := hparts
  apply ModuleNames.ofContents?_nameSection hsize
  · intro e he
    exact Nat.lt_trans (lt_length_of_mem_functionNames he) (length_lt_of_encodeNames hfunctions)
  · intro e he
    exact Nat.lt_trans (lt_length_of_mem_slotNames he) (length_lt_of_encodeNames hslots)

theorem customs_layout {names : Bytes} (hnames : t.nameSection = .custom "name" names)
    (codes : List Code) (metadata : Metadata) :
    (t.layout codes metadata).customs =
      [("name", names), (Layout.metadataSection, bytesOf metadata.toValue.write)] := by
  have hnone (s : Section) (hs : Module.customs [s] = []) (c : Bool) :
      Module.customs (if c then [] else [s]) = [] := by
    cases c with
    | true => rfl
    | false => exact hs
  have helements : Module.customs t.elementSections = [] := hnone _ rfl _
  have hdata : Module.customs t.dataSections = [] := hnone _ rfl _
  rw [Module.customs] at helements hdata
  simp only [Module.customs, layout, List.filterMap_append, helements, hdata, hnames]
  rfl

/-- No section is of a kind that holds a single number, and custom sections have short names. -/
theorem opensWell_of_mem_layout {s : Section} (hs : s ∈ t.layout codes metadata) :
    s.opensWell := by
  have hname : (bytesOf "name").length ≤ longestName := by
    rw [bytesOf_eq_flatMap]
    decide
  have hmetadata : (bytesOf Layout.metadataSection).length ≤ longestName := by
    rw [bytesOf_eq_flatMap]
    decide
  simp only [layout, List.mem_append, List.mem_cons, List.not_mem_nil, or_false] at hs
  rcases hs with (((hs | hs) | rfl) | hs) | rfl | rfl
  · rcases hs with rfl | rfl | rfl | rfl | rfl | rfl | rfl <;> trivial
  · rw [elementSections] at hs
    split at hs
    · cases hs
    · obtain rfl := List.mem_singleton.mp hs
      trivial
  · trivial
  · rw [dataSections] at hs
    split at hs
    · cases hs
    · obtain rfl := List.mem_singleton.mp hs
      trivial
  · exact hname
  · exact hmetadata

/-- The custom sections of a module that is written can be found in its bytes. -/
theorem customSections_encode_layout (hwritable : (t.layout codes metadata).isWritable) :
    ∃ names, customSections (t.layout codes metadata).encode =
        [("name", names), (Layout.metadataSection, bytesOf metadata.toValue.write)] ∧
      ModuleNames.ofContents? names =
        some ⟨some Layout.container, t.functionNames, t.slotNames⟩ := by
  obtain ⟨names, hnames, hread⟩ := ofContents?_nameSection hwritable
  refine ⟨names, ?_, hread⟩
  rw [← customs_layout hnames codes metadata]
  apply customSections_encode
  intro s hs
  exact ⟨of_decide_eq_true (List.all_eq_true.mp hwritable s hs), opensWell_of_mem_layout hs⟩

/-- The names in the bytes of a module. -/
theorem ofModule?_encode_layout (hwritable : (t.layout codes metadata).isWritable) :
    ModuleNames.ofModule? (t.layout codes metadata).encode =
      some ⟨some Layout.container, t.functionNames, t.slotNames⟩ := by
  obtain ⟨names, hsections, hread⟩ := customSections_encode_layout hwritable
  rw [ModuleNames.ofModule?, hsections, List.lookup_cons, beq_self_eq_true]
  exact hread

end Tables

/-! ## Reading descriptions -/

theorem Host.assemble_eq_ok_iff {h : Host} {p : Program} {source : String} {bytes : Bytes} :
    h.assemble p source = .ok bytes ↔
      ∃ md, h.module p source = .ok md ∧ md.isValid ∧ md.isWritable ∧ md.encode = bytes := by
  rw [assemble, bind_eq_ok_iff]
  refine exists_congr fun md ↦ and_congr_right fun _ ↦ ?_
  split
  · rename_i hvalid
    split
    · rename_i hwritable
      simp [hvalid, hwritable]
    · rename_i hwritable
      simp [hwritable]
  · rename_i hvalid
    simp [hvalid]

/-- A module that is given out describes its program. Whatever is in the bytes before it, and
whatever characters names have, its metadata is found and read as it was written: the names of the
slots, the subroutines in order with their functions and positions, the library members in the order
of their first uses, and the digest of the source. The routine to start in is exported under the
name that the metadata has for it, and whoever reads the section of names finds that the module is
named as the container is. -/
theorem Host.ofModule?_assemble {h : Host} {p : Program} {source : String} {bytes : Bytes}
    (hbytes : h.assemble p source = .ok bytes) :
    ∃ md, h.module p source = .ok md ∧ md.encode = bytes ∧
      ∃ metadata, Metadata.ofModule? bytes = some metadata ∧
        metadata.slots = p.symbols.names ∧
        metadata.subroutines = ((subroutineNames p.body).zipIdx.map fun (name, i) ↦
          ⟨name, md.imports.length + 1 + i, i⟩) ∧
        (∀ e ∈ metadata.subroutines, md.tableAt? e.position = some e.function) ∧
        metadata.capabilities = h.capabilities p ∧
        (md.imports.map fun i ↦ ⟨i.module, i.field⟩) =
          h.operators.sources.eraseDups ++ metadata.capabilities ∧
        metadata.digest = Sha256.hexDigest (bytesOf source) ∧
        md.exportedFunction? metadata.entry = some md.imports.length ∧
        ∃ functions globals, Wasm.nameSection metadata.container functions globals ∈ md ∧
          ModuleNames.ofModule? bytes = some ⟨some metadata.container, functions, globals⟩ := by
  obtain ⟨md, hmodule, hvalid, hwritable, hencode⟩ := assemble_eq_ok_iff.mp hbytes
  obtain ⟨t, codes, ht, -, rfl⟩ := Host.module_eq_ok_iff.mp hmodule
  obtain ⟨contents, hsections, -⟩ := Tables.customSections_encode_layout hwritable
  have hnames := Tables.ofModule?_encode_layout hwritable
  rw [hencode] at hsections hnames
  have hread : Metadata.ofModule? bytes = some (.ofTables t source) :=
    Metadata.ofModule?_of_customSections (Tables.fits_of_isValid hvalid source) hsections
  have hfinished := Tables.isFinished_of_ofProgram ht
  have hlists := Tables.lists_of_ofProgram ht
  refine ⟨_, hmodule, hencode, _, hread, hfinished.slots, ?_, ?_, hlists.capabilities, ?_, rfl, ?_,
    ⟨_, _, Tables.nameSection_mem_layout, hnames⟩⟩
  · rw [Tables.imports_layout, List.length_map, ← hfinished.subroutines]
    refine List.map_congr_left fun s _ ↦ ?_
    simp only [Tables.function, Routine.position, Nat.add_assoc, Nat.add_comm 1]
  · intro e he
    obtain ⟨⟨name, i⟩, hi, rfl⟩ := List.mem_map.mp he
    exact Tables.tableAt?_layout (List.mem_zipIdx' hi).1
  · have hcapabilities : (Metadata.ofTables t source).capabilities = _ := hlists.capabilities
    rw [Tables.imports_layout, List.map_map, hcapabilities, ← List.eraseDups_append]
    exact hlists.imports
  · rw [Tables.imports_layout, List.length_map]
    exact Tables.exportedFunction?_layout

/-- A program whose names have quotes, escapes and letters of all lengths. -/
def Program.quoting : Program where
  symbols := ⟨["a\"b\\c", "\n\x01é€😀"]⟩
  body :=
    [.callSub "\"" default, .sub "" [] default,
      .sub "\"" [.call "Console" "Write" [.variable "a\"b\\c"] default] default]

/-- The tables of a program that is emitted. -/
def Program.quotingTables : Tables :=
  match Tables.ofProgram .console quoting with
  | .ok t => t
  | .error _ => .empty

def Program.quotingModule : Module :=
  match Setting.lowerProgram ⟨.console, quotingTables⟩ quoting with
  | .ok codes => quotingTables.layout codes (.ofTables quotingTables "")
  | .error _ => []

theorem Program.quoting_ofModule?_assemble :
    Host.console.assemble quoting "" = .ok quotingModule.encode ∧
      ∃ metadata, Metadata.ofModule? quotingModule.encode = some metadata ∧
        metadata.slots = ["a\"b\\c", "\n\x01é€😀"] ∧
        metadata.subroutines = [⟨"", 20, 0⟩, ⟨"\"", 21, 1⟩] ∧
        metadata.capabilities = [⟨"console", "write"⟩] := by
  obtain ⟨hok, hvalid, hwritable⟩ : (Host.console.module quoting "").isOk ∧
      quotingModule.isValid ∧ quotingModule.isWritable := by decide +kernel
  have hmodule : Host.console.module quoting "" = .ok quotingModule := by
    obtain ⟨md, hmd⟩ := exists_of_isOk hok
    obtain ⟨t, codes, ht, hcodes, rfl⟩ := Host.module_eq_ok_iff.mp hmd
    rw [hmd]
    delta quotingModule quotingTables
    rw [ht]
    dsimp only
    rw [hcodes]
  have hbytes := Host.assemble_eq_ok_iff.mpr ⟨_, hmodule, hvalid, hwritable, rfl⟩
  obtain ⟨md, hmd, -, metadata, hread, hslots, hsubroutines, -, hcapabilities, -⟩ :=
    Host.ofModule?_assemble hbytes
  obtain rfl : quotingModule = md := Except.ok.inj (hmodule.symm.trans hmd)
  exact ⟨hbytes, metadata, hread, hslots, hsubroutines, hcapabilities⟩

end ScriptWasm
