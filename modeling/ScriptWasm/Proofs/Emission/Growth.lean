import ScriptWasm.Proofs.Emission.Demand
import ScriptWasm.Proofs.Library.Binding

/-!
# Tables only grow

Every step of the first walk adds at the end of a table or leaves it alone, so an index that was
given once stays what it is. That is the whole reason why the second walk may look things up in the
finished tables, and it is proved here from what one demand does.

A function that is demanded is imported from then on, and a text that is demanded has its place. A
function that has been imported keeps the signature that it was first demanded with.
-/

namespace ScriptWasm

open Wasm

namespace Tables

variable {t t' : Tables}

/-! ## What single additions do -/

theorem importIndex?_isSome_iff {source : ImportRef} :
    (t.importIndex? source).isSome ↔ ∃ e ∈ t.imports, e.source = source := by
  simp [importIndex?, List.findIdx?_isSome]

theorem imported_eq_ok_iff {source : ImportRef} {i : Nat} :
    t.imported source = .ok i ↔ t.importIndex? source = some i := by
  rw [imported]
  split <;> simp_all

/-- A signature is added at the end, unless it is known. -/
theorem addSignature_spec (t : Tables) (type : FuncType) :
    ∃ signatures, (t.addSignature type).2 = { t with signatures := signatures } ∧
      t.signatures <+: signatures ∧ signatures ⊆ type :: t.signatures ∧
      signatures[(t.addSignature type).1]? = some type := by
  rw [addSignature]
  split
  · rename_i i hi
    refine ⟨t.signatures, rfl, List.prefix_rfl, List.subset_cons_self _ _, ?_⟩
    rw [List.idxOf?, List.findIdx?_eq_some_iff_getElem] at hi
    obtain ⟨hlt, heq, -⟩ := hi
    rw [List.getElem?_eq_getElem hlt, eq_of_beq heq]
  · exact ⟨t.signatures ++ [type], rfl, List.prefix_append _ _, by simp, by simp⟩

theorem addImport_of_known {source : ImportRef} {i : Nat} (h : t.importIndex? source = some i)
    (type : FuncType) : t.addImport source type = (i, t) := by
  rw [addImport, h]

/-- A new import comes last and has the signature that it is added with. -/
theorem addImport_of_new {source : ImportRef} (h : t.importIndex? source = none)
    (type : FuncType) :
    ∃ signature signatures, (t.addImport source type).2 =
        { t with signatures := signatures, imports := t.imports ++ [⟨source, signature⟩] } ∧
      t.signatures <+: signatures ∧ signatures ⊆ type :: t.signatures ∧
      signatures[signature]? = some type := by
  obtain ⟨signatures, hs, hspec⟩ := addSignature_spec t type
  refine ⟨(t.addSignature type).1, signatures, ?_, hspec⟩
  rw [addImport, h]
  simp only [hs]

theorem addCapability_of_known {source : ImportRef} {i : Nat} (h : t.importIndex? source = some i)
    (type : FuncType) : t.addCapability source type = (i, t) := by
  rw [addCapability, h]

theorem addCapability_of_new {source : ImportRef} (h : t.importIndex? source = none)
    (type : FuncType) :
    t.addCapability source type =
      { t with capabilities := t.capabilities ++ [source] }.addImport source type := by
  rw [addCapability, h]

theorem addText_eq_ok_iff {text : String} {r : Extent × Tables} :
    t.addText text = .ok r ↔
      (∃ e, t.textExtent? text = some e ∧ (e, t) = r) ∨
      (t.textExtent? text = none ∧ dataStart + t.dataSize < indexLimit ∧
        text.utf8ByteSize < indexLimit ∧
        (⟨dataStart + t.dataSize, text.utf8ByteSize⟩,
          { t with texts := t.texts ++ [⟨text, dataStart + t.dataSize, text.utf8ByteSize⟩] }) =
          r) := by
  rw [addText]
  cases t.textExtent? text with
  | some e => simp
  | none =>
    by_cases hd : indexLimit ≤ dataStart + t.dataSize
    · simp [hd, Nat.not_lt.mpr hd]
    · by_cases hl : indexLimit ≤ text.utf8ByteSize
      · simp [hd, hl, Nat.not_lt.mpr hl]
      · simp [hd, hl, Nat.not_le.mp hd, Nat.not_le.mp hl]

/-! ## Growth -/

/-- Later tables hold what earlier ones hold, at the same indices. -/
structure Extends (t t' : Tables) : Prop where
  slots : t'.slots = t.slots
  signatures : t.signatures <+: t'.signatures
  imports : t.imports <+: t'.imports
  texts : t.texts <+: t'.texts

namespace Extends

theorem refl (t : Tables) : t.Extends t :=
  ⟨rfl, List.prefix_rfl, List.prefix_rfl, List.prefix_rfl⟩

theorem trans {t t' t'' : Tables} (h : t.Extends t') (h' : t'.Extends t'') : t.Extends t'' :=
  ⟨h'.slots.trans h.slots, h.signatures.trans h'.signatures, h.imports.trans h'.imports,
    h.texts.trans h'.texts⟩

theorem importIndex? (h : t.Extends t') {source : ImportRef} {i : Nat}
    (hi : t.importIndex? source = some i) : t'.importIndex? source = some i := by
  obtain ⟨more, hmore⟩ := h.imports
  rw [Tables.importIndex?] at hi ⊢
  rw [← hmore, List.findIdx?_append, hi, Option.some_or]

theorem textExtent? (h : t.Extends t') {text : String} {e : Extent}
    (he : t.textExtent? text = some e) : t'.textExtent? text = some e := by
  obtain ⟨more, hmore⟩ := h.texts
  rw [Tables.textExtent?] at he ⊢
  obtain ⟨entry, hentry, rfl⟩ := Option.map_eq_some_iff.mp he
  rw [← hmore, List.find?_append, hentry, Option.some_or, Option.map_some]

end Extends

theorem extends_addImport (t : Tables) (source : ImportRef) (type : FuncType) :
    t.Extends (t.addImport source type).2 := by
  cases h : t.importIndex? source with
  | some i =>
    rw [addImport_of_known h]
    exact .refl t
  | none =>
    obtain ⟨signature, signatures, ht, hprefix, -⟩ := addImport_of_new h type
    rw [ht]
    exact ⟨rfl, hprefix, List.prefix_append _ _, List.prefix_rfl⟩

/-! ## What meeting one demand does -/

/-- The ways to meet a demand. Whatever else is known about the first walk is read off here. -/
inductive Meets : Tables × Routine → Demand → Tables × Routine → Prop
  | knownFunction {t r source type i} (known : t.importIndex? source = some i) :
      Meets (t, r) (.function source type) (t, r)
  | newFunction {t r source type signature signatures} (new : t.importIndex? source = none)
      (grown : t.signatures <+: signatures) (added : signatures ⊆ type :: t.signatures)
      (typed : signatures[signature]? = some type) :
      Meets (t, r) (.function source type)
        ({ t with
            signatures := signatures
            capabilities := t.capabilities ++ [source]
            imports := t.imports ++ [⟨source, signature⟩] }, r)
  | knownText {t r contents e} (known : t.textExtent? contents = some e) :
      Meets (t, r) (.text contents) (t, r)
  | newText {t r contents} (new : t.textExtent? contents = none)
      (start : dataStart + t.dataSize < indexLimit) (length : contents.utf8ByteSize < indexLimit) :
      Meets (t, r) (.text contents)
        ({ t with
            texts := t.texts ++ [⟨contents, dataStart + t.dataSize, contents.utf8ByteSize⟩] }, r)
  | label {t r name} (new : name ∉ t.labelsOf r) :
      Meets (t, r) (.label name) ({ t with labels := t.labels.modify r.position (· ++ [name]) }, r)
  | enter {t r name} (new : name ∉ t.subroutines) :
      Meets (t, r) (.enter name)
        ({ t with subroutines := t.subroutines ++ [name], labels := t.labels ++ [[]] },
          .subroutine t.subroutines.length)
  | leave {t r} : Meets (t, r) .leave (t, .entry)

theorem meets_of_meet {q q' : Tables × Routine} {d : Demand} (h : meet q d = .ok q') :
    Meets q d q' := by
  obtain ⟨t, routine⟩ := q
  cases d with
  | function source type =>
    rw [meet, pure_eq_ok_iff] at h
    rw [← h]
    cases hi : t.importIndex? source with
    | some i =>
      rw [addCapability_of_known hi]
      exact .knownFunction hi
    | none =>
      obtain ⟨signature, signatures, ht, hgrown, hadded, htyped⟩ :=
        addImport_of_new (t := { t with capabilities := t.capabilities ++ [source] }) hi type
      rw [addCapability_of_new hi, ht]
      exact .newFunction hi hgrown hadded htyped
  | text contents =>
    simp only [meet, bind_eq_ok_iff, pure_eq_ok_iff, addText_eq_ok_iff] at h
    obtain ⟨r, ⟨e, he, rfl⟩ | ⟨he, hstart, hlength, rfl⟩, rfl⟩ := h
    · exact .knownText he
    · exact .newText he hstart hlength
  | label name =>
    simp only [meet, bind_eq_ok_iff, pure_eq_ok_iff, declareLabel] at h
    obtain ⟨r, hr, rfl⟩ := h
    split at hr
    · cases hr
    · rename_i hnew
      cases hr
      exact .label (by rwa [List.contains_iff_mem] at hnew)
  | enter name =>
    simp only [meet, bind_eq_ok_iff, pure_eq_ok_iff, declareSubroutine] at h
    obtain ⟨r, hr, rfl⟩ := h
    split at hr
    · cases hr
    · rename_i hnew
      split at hr
      · cases hr
        exact .enter (by rwa [List.contains_iff_mem] at hnew)
      · cases hr
  | leave =>
    rw [meet, pure_eq_ok_iff] at h
    rw [← h]
    exact .leave

/-- Meeting a demand makes the tables grow. -/
theorem Meets.extends {q q' : Tables × Routine} {d : Demand} (h : Meets q d q') :
    q.1.Extends q'.1 := by
  cases h with
  | knownFunction _ => exact .refl _
  | newFunction _ grown _ _ => exact ⟨rfl, grown, List.prefix_append _ _, List.prefix_rfl⟩
  | knownText _ => exact .refl _
  | newText _ _ _ => exact ⟨rfl, List.prefix_rfl, List.prefix_rfl, List.prefix_append _ _⟩
  | label _ => exact ⟨rfl, List.prefix_rfl, List.prefix_rfl, List.prefix_rfl⟩
  | enter _ => exact ⟨rfl, List.prefix_rfl, List.prefix_rfl, List.prefix_rfl⟩
  | leave => exact .refl _

theorem extends_meetAll {ds : List Demand} {q q' : Tables × Routine}
    (h : meetAll q ds = .ok q') : q.1.Extends q'.1 :=
  meetAll_induction (fun _ q' ↦ q.1.Extends q'.1)
    (fun hq hd ↦ hq.trans (meets_of_meet hd).extends) (.refl _) h

/-! ## What was demanded can be looked up -/

/-- The tables have what is demanded, whatever signature it has. -/
def Provides (t : Tables) : Demand → Prop
  | .function source _ => ∃ i, t.importIndex? source = some i
  | .text contents => ∃ e, t.textExtent? contents = some e
  | _ => True

theorem Extends.provides (h : t.Extends t') {d : Demand} (hd : t.Provides d) : t'.Provides d := by
  cases d with
  | function source type =>
    obtain ⟨i, hi⟩ := hd
    exact ⟨i, h.importIndex? hi⟩
  | text contents =>
    obtain ⟨e, he⟩ := hd
    exact ⟨e, h.textExtent? he⟩
  | label name => trivial
  | enter name => trivial
  | leave => trivial

theorem importIndex?_addImport (t : Tables) (source : ImportRef) (type : FuncType) :
    ∃ i, (t.addImport source type).2.importIndex? source = some i := by
  cases h : t.importIndex? source with
  | some i => exact ⟨i, by rw [addImport_of_known h, h]⟩
  | none =>
    obtain ⟨signature, signatures, ht, -⟩ := addImport_of_new h type
    rw [ht, ← Option.isSome_iff_exists, importIndex?_isSome_iff]
    exact ⟨⟨source, signature⟩, by simp, rfl⟩

theorem Meets.provides {q q' : Tables × Routine} {d : Demand} (h : Meets q d q') :
    q'.1.Provides d := by
  cases h with
  | knownFunction known => exact ⟨_, known⟩
  | newFunction _ _ _ _ =>
    rw [Provides, ← Option.isSome_iff_exists, importIndex?_isSome_iff]
    exact ⟨_, List.mem_append_right _ List.mem_cons_self, rfl⟩
  | knownText known => exact ⟨_, known⟩
  | @newText t _ contents new =>
    rw [textExtent?, Option.map_eq_none_iff] at new
    rw [Provides, textExtent?, List.find?_append, new, Option.none_or]
    exact ⟨⟨dataStart + t.dataSize, contents.utf8ByteSize⟩, by simp⟩
  | label _ => trivial
  | enter _ => trivial
  | leave => trivial

/-- Once all demands have been met, each of them can be looked up. -/
theorem provides_of_meetAll {ds : List Demand} {q q' : Tables × Routine}
    (h : meetAll q ds = .ok q') {d : Demand} (hd : d ∈ ds) : q'.1.Provides d := by
  induction ds generalizing q with
  | nil => cases hd
  | cons d' ds ih =>
    rw [meetAll_cons, bind_eq_ok_iff] at h
    obtain ⟨q₁, hd', hds⟩ := h
    cases hd with
    | head => exact (extends_meetAll hds).provides (meets_of_meet hd').provides
    | tail _ hd => exact ih hds hd

/-! ## The tables that every module starts from -/

theorem extends_addImports (handles : List Handle) (t : Tables) :
    t.Extends (handles.foldl (fun t h ↦ (t.addImport h.source h.signature).2) t) := by
  induction handles generalizing t with
  | nil => exact .refl t
  | cons h rest ih => exact (extends_addImport t h.source h.signature).trans (ih _)

theorem importIndex?_addImports {handles : List Handle} {h : Handle} (hh : h ∈ handles)
    (t : Tables) :
    ∃ i, (handles.foldl (fun t h ↦ (t.addImport h.source h.signature).2) t).importIndex? h.source =
      some i := by
  induction hh generalizing t with
  | head rest =>
    obtain ⟨i, hi⟩ := importIndex?_addImport t h.source h.signature
    exact ⟨i, (extends_addImports rest _).importIndex? hi⟩
  | tail first _ ih => exact ih _

/-- Every operation is imported from the start. -/
theorem importIndex?_start (operators : Bindings) (op : Operator) :
    ∃ i, (start operators).importIndex? (operators.handle op).source = some i :=
  importIndex?_addImports (List.mem_map_of_mem op.mem_all) _

end Tables

end ScriptWasm
