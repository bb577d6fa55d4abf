import ScriptWasm.Proofs.Emission.Finished

/-!
# The types of imports

Imports are told apart by their names alone: what is known already is not imported again, whatever
type it is asked for with. So an imported function has the type of its first use, where operations
come first and then library members in the order of the walk over the program. Every later use of
the same name gets that function, even if it has another type.
-/

namespace ScriptWasm

open Wasm

/-! ## Uses -/

/-- The function that a demand asks for, with its type. -/
def Demand.use? : Demand → Option (ImportRef × FuncType)
  | .function source type => some (source, type)
  | _ => none

def Handle.use (h : Handle) : ImportRef × FuncType := (h.source, h.signature)

/-- The functions that the module of a program asks for, in order: every operation, and the library
members that the program uses. -/
def Host.uses (h : Host) (p : Program) : List (ImportRef × FuncType) :=
  h.operators.handles.map Handle.use ++ (h.registry.stmtsDemands p.body).filterMap Demand.use?

theorem Host.operator_mem_uses (h : Host) (p : Program) (op : Operator) :
    (h.operators.handle op).use ∈ h.uses p :=
  List.mem_append_left _ (List.mem_map_of_mem (List.mem_map_of_mem op.mem_all))

theorem Host.mem_uses {h : Host} {p : Program} {source : ImportRef} {type : FuncType}
    (hd : .function source type ∈ h.registry.stmtsDemands p.body) : (source, type) ∈ h.uses p :=
  List.mem_append_right _ (List.mem_filterMap.mpr ⟨_, hd, rfl⟩)

/-- The type that a function is first used with. -/
def firstType? (uses : List (ImportRef × FuncType)) (source : ImportRef) : Option FuncType :=
  (uses.find? (·.1 = source)).map Prod.snd

/-- Every use has the type of the first use of its name exactly if no two of them differ. -/
theorem firstType?_eq_iff {uses : List (ImportRef × FuncType)} :
    (∀ u ∈ uses, firstType? uses u.1 = some u.2) ↔
      ∀ u ∈ uses, ∀ v ∈ uses, u.1 = v.1 → u.2 = v.2 := by
  constructor
  · intro h u hu v hv heq
    have := h u hu
    rw [heq, h v hv] at this
    exact (Option.some.inj this).symm
  · intro h u hu
    have hfound : (uses.find? (·.1 = u.1)).isSome := List.find?_isSome.mpr ⟨u, hu, by simp⟩
    obtain ⟨v, hv⟩ := Option.isSome_iff_exists.mp hfound
    have heq : v.1 = u.1 := by simpa using List.find?_some hv
    rw [firstType?, hv, Option.map_some, h v (List.mem_of_find?_eq_some hv) u hu heq]

namespace Tables

variable {t : Tables} {uses : List (ImportRef × FuncType)}

/-- The type of an imported function. -/
def importType? (t : Tables) (source : ImportRef) : Option FuncType :=
  (t.imports.find? (·.source = source)).bind fun e ↦ t.signatures[e.signature]?

/-! ## The walk over a program -/

/-- Imports have the types of their first uses. -/
structure Records (t : Tables) (uses : List (ImportRef × FuncType)) : Prop where
  typed : ∀ e ∈ t.imports, ∃ type, t.signatures[e.signature]? = some type
  used : ∀ type ∈ t.signatures, type = ⟨[], []⟩ ∨ ∃ u ∈ uses, u.2 = type
  importType? : ∀ source, t.importType? source = firstType? uses source

namespace Records

/-- What is imported has been used. -/
theorem find?_isSome (ht : t.Records uses) {source : ImportRef} {i : Nat}
    (h : t.importIndex? source = some i) : (uses.find? (·.1 = source)).isSome := by
  have hfirst := ht.importType? source
  have hfound : (t.imports.find? (·.source = source)).isSome := by
    rw [List.find?_isSome]
    simpa using importIndex?_isSome_iff.mp (Option.isSome_of_eq_some h)
  obtain ⟨e, he⟩ := Option.isSome_iff_exists.mp hfound
  obtain ⟨type, htype⟩ := ht.typed e (List.mem_of_find?_eq_some he)
  rw [Tables.importType?, he, Option.bind_some, htype, firstType?] at hfirst
  exact Option.isSome_map ▸ Option.isSome_of_eq_some hfirst.symm

theorem used_append (ht : t.Records uses) (more : List (ImportRef × FuncType)) :
    ∀ type ∈ t.signatures, type = ⟨[], []⟩ ∨ ∃ u ∈ uses ++ more, u.2 = type := fun type htype ↦
  (ht.used type htype).imp_right fun ⟨u, hu, heq⟩ ↦ ⟨u, List.mem_append_left _ hu, heq⟩

/-- A use of a function that is imported already changes nothing. -/
theorem known (ht : t.Records uses) {source : ImportRef} {i : Nat}
    (h : t.importIndex? source = some i) (type : FuncType) :
    t.Records (uses ++ [(source, type)]) := by
  refine ⟨ht.typed, ht.used_append _, fun source' ↦ ?_⟩
  rw [ht.importType?, firstType?, firstType?, List.find?_append]
  by_cases heq : source = source'
  · rw [Option.or_of_isSome (heq ▸ ht.find?_isSome h)]
  · rw [List.find?_cons_of_neg (by simpa using heq), List.find?_nil, Option.or_none]

/-- The first use of a function adds an import of its type. -/
theorem new (ht : t.Records uses) {t' : Tables} {source : ImportRef} {signature : Nat}
    {type : FuncType} (himports : t'.imports = t.imports ++ [⟨source, signature⟩])
    (hgrown : t.signatures <+: t'.signatures) (hadded : t'.signatures ⊆ type :: t.signatures)
    (htyped : t'.signatures[signature]? = some type) : t'.Records (uses ++ [(source, type)]) := by
  have hkept {e : ImportEntry} (he : e ∈ t.imports) :
      t'.signatures[e.signature]? = t.signatures[e.signature]? := by
    obtain ⟨type', htype'⟩ := ht.typed e he
    obtain ⟨more, hmore⟩ := hgrown
    rw [← hmore, List.getElem?_append_left (List.getElem?_eq_some_iff.mp htype').1]
  refine ⟨?_, fun type' htype' ↦ ?_, fun source' ↦ ?_⟩
  · rw [himports]
    refine List.forall_mem_append.mpr ⟨fun e he ↦ ?_, by simpa using ⟨type, htyped⟩⟩
    rw [hkept he]
    exact ht.typed e he
  · obtain rfl | htype' := List.mem_cons.mp (hadded htype')
    · exact .inr ⟨_, List.mem_append_right _ List.mem_cons_self, rfl⟩
    · exact ht.used_append _ type' htype'
  · have hfirst := ht.importType? source'
    rw [Tables.importType?, firstType?] at hfirst ⊢
    rw [himports, List.find?_append, List.find?_append]
    cases hfound : t.imports.find? (·.source = source') with
    | some e =>
      have he := List.mem_of_find?_eq_some hfound
      obtain ⟨type', htype'⟩ := ht.typed e he
      rw [hfound, Option.bind_some, htype'] at hfirst
      obtain ⟨u, hu, hutype⟩ := Option.map_eq_some_iff.mp hfirst.symm
      rw [Option.some_or, Option.bind_some, hkept he, htype', hu, Option.some_or, Option.map_some,
        hutype]
    | none =>
      rw [hfound, Option.bind_none, eq_comm, Option.map_eq_none_iff] at hfirst
      rw [hfirst, Option.none_or, Option.none_or]
      by_cases heq : source = source'
      · rw [List.find?_cons_of_pos (by simpa using heq),
          List.find?_cons_of_pos (by simpa using heq)]
        exact htyped
      · rw [List.find?_cons_of_neg (by simpa using heq),
          List.find?_cons_of_neg (by simpa using heq)]
        rfl

theorem addImport (ht : t.Records uses) (source : ImportRef) (type : FuncType) :
    (t.addImport source type).2.Records (uses ++ [(source, type)]) := by
  cases h : t.importIndex? source with
  | some i =>
    rw [addImport_of_known h]
    exact ht.known h type
  | none =>
    obtain ⟨signature, signatures, heq, hgrown, hadded, htyped⟩ := addImport_of_new h type
    rw [heq]
    exact ht.new rfl hgrown hadded htyped

theorem addImports (handles : List Handle) (ht : t.Records uses) :
    (handles.foldl (fun t h ↦ (t.addImport h.source h.signature).2) t).Records
      (uses ++ handles.map Handle.use) := by
  induction handles generalizing t uses with
  | nil => simpa using ht
  | cons h rest ih =>
    have := ih (ht.addImport h.source h.signature)
    rwa [List.append_assoc, List.singleton_append] at this

theorem meet {q q' : Tables × Routine} {d : Demand} (ht : q.1.Records uses) (h : Meets q d q') :
    q'.1.Records (uses ++ d.use?.toList) := by
  cases h with
  | @knownFunction t r source type i hknown => exact ht.known hknown type
  | newFunction _ hgrown hadded htyped => exact ht.new rfl hgrown hadded htyped
  | _ => exact (List.append_nil uses).symm ▸ ⟨ht.typed, ht.used, ht.importType?⟩

theorem meetAll {ds : List Demand} {q q' : Tables × Routine} (ht : q.1.Records uses)
    (h : meetAll q ds = .ok q') : q'.1.Records (uses ++ ds.filterMap Demand.use?) :=
  meetAll_collects (fun uses t ↦ t.Records uses) Demand.use?
    (fun hq hd ↦ hq.meet (meets_of_meet hd)) ht h

end Records

/-! ## Finished tables -/

theorem records_start (operators : Bindings) :
    (start operators).Records (operators.handles.map Handle.use) := by
  have hempty : (empty.addSignature ⟨[], []⟩).2.Records [] :=
    ⟨nofun, fun _ htype ↦ .inl (List.mem_singleton.mp htype), fun _ ↦ rfl⟩
  exact hempty.addImports operators.handles

theorem Records.withSlots (ht : t.Records uses) (names : List String) :
    (t.withSlots names).Records uses := ⟨ht.typed, ht.used, ht.importType?⟩

/-- The imports of a program have the types of their first uses. -/
theorem records_of_ofProgram {h : Host} {p : Program} (ht : ofProgram h p = .ok t) :
    t.Records (h.uses p) := by
  obtain ⟨-, -, hm⟩ := ofProgram_eq_ok_iff.mp ht
  exact ((records_start h.operators).withSlots p.symbols.names).meetAll hm

/-- The first signature is that of routines. -/
theorem signatures_start (operators : Bindings) :
    [⟨[], []⟩] <+: (start operators).signatures :=
  (extends_addImports operators.handles (empty.addSignature ⟨[], []⟩).2).signatures

theorem signatures_of_ofProgram {h : Host} {p : Program} (ht : ofProgram h p = .ok t) :
    t.signatures[0]? = some ⟨[], []⟩ := by
  obtain ⟨-, -, hm⟩ := ofProgram_eq_ok_iff.mp ht
  have hslots (t : Tables) : t.signatures <+: (t.withSlots p.symbols.names).signatures :=
    List.prefix_rfl
  obtain ⟨more, hmore⟩ := ((signatures_start h.operators).trans (hslots _)).trans
    (extends_meetAll hm).signatures
  rw [← hmore]
  rfl

end Tables

end ScriptWasm
