import ScriptWasm.Proofs.Execution.Layout
import ScriptWasm.Proofs.Typing.Emitted

/-!
# The context of a module

A module is checked in the context that is collected from its own sections, where types stand for
the first of their kind. Signatures without references are their own normal form, so that every
function of the module has the very signature that the tables have for it. If imports have the types
that they are used with, all code is well typed in this context.
-/

namespace ScriptWasm

namespace Wasm

/-! ## Signatures without references -/

/-- Whether a signature holds no references. -/
def FuncType.isPlain (t : FuncType) : Bool := (t.params ++ t.results).all (!·.isReference)

theorem ValType.mapIndex_of_isReference {f : Nat → Option Nat} {t : ValType}
    (h : (!t.isReference) = true) : t.mapIndex f = some t := by
  cases t with
  | ref t => cases h
  | _ => rfl

theorem mapM_of_forall {α : Type} {f : α → Option α} {xs : List α}
    (h : ∀ x ∈ xs, f x = some x) : xs.mapM f = some xs := by
  induction xs with
  | nil => rfl
  | cons x xs ih =>
    obtain ⟨hx, hxs⟩ := List.forall_mem_cons.mp h
    rw [List.mapM_cons, hx, ih hxs]
    rfl

theorem FuncType.mapIndex_of_isPlain {f : Nat → Option Nat} {t : FuncType} (h : t.isPlain) :
    t.mapIndex f = some t := by
  rw [isPlain, List.all_append, Bool.and_eq_true, List.all_eq_true, List.all_eq_true] at h
  rw [mapIndex, mapM_of_forall fun v hv ↦ ValType.mapIndex_of_isReference (h.1 v hv),
    mapM_of_forall fun v hv ↦ ValType.mapIndex_of_isReference (h.2 v hv)]
  rfl

theorem FuncType.mapM_group_of_isPlain {f : Nat → Option Nat} {t : FuncType} (h : t.isPlain) :
    t.group.mapM (SubType.mapIndex f) = some t.group := by
  refine mapM_of_forall fun s hs ↦ ?_
  obtain rfl := List.mem_singleton.mp hs
  simp only [SubType.mapIndex, CompositeType.mapIndex, mapIndex_of_isPlain h]
  rfl

theorem count_words (n : Nat) :
    (List.replicate n (1, ValType.i32)).foldr (fun g k ↦ g.1 + k) 0 = n := by
  induction n with
  | zero => rfl
  | succ n ih =>
    rw [List.replicate_succ, List.foldr_cons, ih]
    omega

theorem mapM_words (types : TypeSpace) (n : Nat) :
    ((List.replicate n (1, ValType.i32)).mapM fun (n, t) ↦
      (types.val? t).map fun t ↦ List.replicate n t) = some (List.replicate n [.i32]) := by
  induction n with
  | zero => rfl
  | succ n ih =>
    rw [List.replicate_succ, List.mapM_cons, ih]
    rfl

/-- A function with words for locals whose body has its type is valid, unless it has too many locals
or branches. -/
theorem Code.isValid_iff {c : Context} {code : Code} {n : Nat}
    (hlocals : code.locals = List.replicate n (1, .i32))
    (hbody : checkBody { c with locals := List.replicate n .i32, results := [] } code.body) :
    code.isValid c ⟨[], []⟩ ↔ code.locals.length ≤ mostLocals ∧ branchesAreFew code.body := by
  have hgroups : (List.replicate n [ValType.i32]).flatten = List.replicate n .i32 := by simp
  have hdefault : (List.replicate n ValType.i32).all (·.hasDefault) := by simp [ValType.hasDefault]
  simp only [isValid, hlocals, count_words, mapM_words, List.length_nil, Nat.zero_add,
    List.nil_append, hgroups, setsBeforeReading, hdefault, Bool.true_or, hbody, Bool.and_true,
    List.length_replicate]
  by_cases hn : n ≤ mostLocals
  · rw [if_pos hn, and_iff_right hn]
  · simp [hn]

/-! ## Spaces of signatures -/

namespace TypeSpace

/-- An index and the first index of its type both stand for a signature. -/
def HasFunc (s : TypeSpace) (i : Nat) (type : FuncType) : Prop :=
  s.func? i = some type ∧ ∃ j, s.first? i = some j ∧ s.func? j = some type

/-- A space has signatures at their indices, and at the start of their groups. -/
structure Holds (s : TypeSpace) (signatures : List FuncType) : Prop where
  length : s.types.length = signatures.length
  types : ∀ i type, signatures[i]? = some type → s.HasFunc i type
  groups : ∀ g ∈ s.groups, ∀ type : FuncType, g.shape = type.group → s.HasFunc g.start type

variable {s : TypeSpace} {signatures : List FuncType} {type : FuncType}

theorem func?_append {i : Nat} (h : s.func? i = some type) (more : List TypeEntry)
    (groups : List GroupEntry) : func? ⟨s.types ++ more, groups⟩ i = some type := by
  rw [func?, composite?] at h ⊢
  cases hi : s.types[i]? with
  | none => simp [hi] at h
  | some e =>
    rw [hi] at h
    rwa [List.getElem?_append_left (List.getElem?_eq_some_iff.mp hi).1, hi]

theorem HasFunc.append {i : Nat} (h : s.HasFunc i type) (more : List TypeEntry)
    (groups : List GroupEntry) : HasFunc ⟨s.types ++ more, groups⟩ i type := by
  obtain ⟨hi, j, hfirst, hj⟩ := h
  refine ⟨func?_append hi more groups, j, ?_, func?_append hj more groups⟩
  obtain ⟨e, he, rfl⟩ := Option.map_eq_some_iff.mp hfirst
  rw [first?, List.getElem?_append_left (List.getElem?_eq_some_iff.mp he).1, he, Option.map_some]

/-- A signature comes behind the others. -/
theorem Holds.extend (h : s.Holds signatures) {e : TypeEntry} {groups : List GroupEntry}
    (hfunc : HasFunc ⟨s.types ++ [e], groups⟩ s.types.length type)
    (hgroups : ∀ g ∈ groups, ∀ type : FuncType, g.shape = type.group →
      HasFunc ⟨s.types ++ [e], groups⟩ g.start type) :
    Holds ⟨s.types ++ [e], groups⟩ (signatures ++ [type]) where
  length := by simp [h.length]
  types i type' hi := by
    by_cases hlt : i < signatures.length
    · rw [List.getElem?_append_left hlt] at hi
      exact (h.types i type' hi).append [e] groups
    · have hle := (List.getElem?_eq_some_iff.mp hi).1
      rw [List.length_append, List.length_singleton] at hle
      obtain rfl : i = signatures.length := by omega
      obtain rfl : type = type' := by simpa using hi
      exact h.length ▸ hfunc
  groups := hgroups

theorem group_injective {type type' : FuncType} (h : type.group = type'.group) : type = type' := by
  simpa [FuncType.group] using h

/-- A signature that is known stands for the first one of its kind, and a new one for itself. -/
theorem Holds.add? (h : s.Holds signatures) (hplain : type.isPlain) {s' : TypeSpace}
    (hadd : s.add? type.group = some s') : s'.Holds (signatures ++ [type]) := by
  have hnormal : s.normalGroup? type.group = some type.group :=
    FuncType.mapM_group_of_isPlain hplain
  have hshape : shape s.types.length type.group = type.group := by
    rw [shape, FuncType.mapM_group_of_isPlain hplain, Option.getD_some]
  simp only [TypeSpace.add?, Option.bind_eq_bind, Option.bind_eq_some_iff, hnormal,
    Option.some.injEq, exists_eq_left', hshape] at hadd
  obtain ⟨-, -, -, -, hadd⟩ := hadd
  cases hfound : s.groups.find? (·.shape = type.group) with
  | some g =>
    rw [hfound] at hadd
    obtain rfl := Option.some.inj hadd
    have hg := h.groups g (List.mem_of_find?_eq_some hfound) type
      (by simpa using List.find?_some hfound)
    obtain ⟨hfunc, j, hfirst, hj⟩ := hg
    obtain ⟨e, he, rfl⟩ := Option.map_eq_some_iff.mp hfirst
    obtain ⟨hlt, heq⟩ := List.getElem?_eq_some_iff.mp he
    have hcopy : (s.types.drop g.start).take type.group.length = [e] := by
      rw [List.drop_eq_getElem_cons hlt, heq]
      rfl
    have hlast : (s.types ++ [e])[s.types.length]? = some e := List.getElem?_concat_length
    rw [hcopy]
    refine h.extend ⟨?_, e.first, ?_, func?_append hj _ _⟩ fun g hg type' hshape ↦
      (h.groups g hg type' hshape).append _ _
    · rw [func?, composite?, he] at hfunc
      rwa [func?, composite?, hlast]
    · rw [first?, hlast, Option.map_some]
  | none =>
    rw [hfound] at hadd
    have hsettled (groups : List GroupEntry) : settleDepths
        ⟨s.types ++ [⟨s.types.length, ⟨true, none, .func type⟩, 0⟩], groups⟩ s.types.length 1 =
        some ⟨s.types ++ [⟨s.types.length, ⟨true, none, .func type⟩, 0⟩], groups⟩ := by
      simp [settleDepths, depthOf?]
    obtain rfl := Option.some.inj ((hsettled _).symm.trans hadd)
    have hlast (e : TypeEntry) : (s.types ++ [e])[s.types.length]? = some e :=
      List.getElem?_concat_length
    have hfunc {groups : List GroupEntry} : HasFunc
        ⟨s.types ++ [⟨s.types.length, ⟨true, none, .func type⟩, 0⟩], groups⟩ s.types.length
        type := by
      have hself : func? ⟨s.types ++ [⟨s.types.length, ⟨true, none, .func type⟩, 0⟩], groups⟩
          s.types.length = some type := by rw [func?, composite?, hlast, Option.map_some]
      exact ⟨hself, s.types.length, by rw [first?, hlast, Option.map_some], hself⟩
    refine h.extend hfunc (List.forall_mem_cons.mpr ⟨fun type' hshape ↦ ?_, fun g hg type' hshape ↦
      (h.groups g hg type' hshape).append _ _⟩)
    exact group_injective hshape ▸ hfunc

/-- Signatures are found at their indices. -/
theorem holds_of_ofGroups? (hplain : ∀ type ∈ signatures, type.isPlain)
    (h : ofGroups? (signatures.map FuncType.group) = some s) : s.Holds signatures := by
  have hfold : ∀ (more before : List FuncType) (s₀ : TypeSpace), s₀.Holds before →
      (∀ type ∈ more, type.isPlain) → (more.map FuncType.group).foldlM TypeSpace.add? s₀ = some s →
      s.Holds (before ++ more) := by
    intro more
    induction more with
    | nil =>
      intro before s₀ hs₀ _ hs
      cases hs
      rwa [List.append_nil]
    | cons type more ih =>
      intro before s₀ hs₀ hplain hs
      obtain ⟨htype, hmore⟩ := List.forall_mem_cons.mp hplain
      rw [List.map_cons, List.foldlM_cons, Option.bind_eq_bind, Option.bind_eq_some_iff] at hs
      obtain ⟨s₁, hadd, hrest⟩ := hs
      have := ih _ s₁ (hs₀.add? htype hadd) hmore hrest
      rwa [List.append_assoc] at this
  exact hfold signatures [] .empty ⟨rfl, nofun, nofun⟩ hplain h

end TypeSpace

end Wasm

open Wasm

variable {h : Host} {p : Program} {t : Tables} {c : Context}

/-! ## Signatures of a program -/

theorem TypeRef.isPlain_paramTypes (type : TypeRef) :
    type.paramTypes.all (!·.isReference) := by
  cases type <;> rfl

theorem TypeRef.isPlain_resultTypes (type : TypeRef) :
    type.resultTypes.all (!·.isReference) := by
  cases type <;> rfl

theorem Handle.isPlain_signature (h : Handle) : h.signature.isPlain := by
  rw [FuncType.isPlain, signature, List.all_append, List.all_flatMap, Bool.and_eq_true,
    List.all_eq_true]
  exact ⟨fun type _ ↦ type.isPlain_paramTypes, h.returns.isPlain_resultTypes⟩

theorem MethodDescriptor.isPlain_signature (m : MethodDescriptor) : m.signature.isPlain := by
  rw [FuncType.isPlain, signature]
  cases m.returnsValue <;> simp [ValType.isReference]

/-- Programs pass numbers and words only. -/
theorem Host.isPlain_uses {u : ImportRef × FuncType} (hu : u ∈ h.uses p) : u.2.isPlain := by
  have hdemands : IsUniversal fun d ↦ ∀ u ∈ d.use?, u.2.isPlain :=
    { method := fun m _ hu ↦ Option.some.inj hu ▸ m.isPlain_signature
      getter := fun _ _ hu ↦ Option.some.inj hu ▸ rfl
      setter := fun _ _ hu ↦ Option.some.inj hu ▸ rfl
      text := fun _ ↦ nofun
      label := fun _ ↦ nofun
      enter := fun _ ↦ nofun
      leave := nofun }
  obtain hu | hu := List.mem_append.mp hu
  · obtain ⟨handle, -, rfl⟩ := List.mem_map.mp hu
    exact handle.isPlain_signature
  · obtain ⟨d, hd, hu⟩ := List.mem_filterMap.mp hu
    exact hdemands.stmtsDemands p.body d hd u hu

theorem Tables.isPlain_signatures (ht : ofProgram h p = .ok t) :
    ∀ type ∈ t.signatures, type.isPlain := by
  intro type htype
  obtain rfl | ⟨u, hu, rfl⟩ := (records_of_ofProgram ht).used type htype
  · rfl
  · exact Host.isPlain_uses hu

/-! ## What a module gives its code -/

namespace Tables

variable {codes : List Code} {metadata : Metadata}

theorem importedFunctions_layout :
    (t.layout codes metadata).importedFunctions = t.imports.map (·.signature) := by
  rw [Module.importedFunctions, imports_layout, List.filterMap_map]
  exact congrFun List.filterMap_eq_map t.imports

theorem importedGlobals_layout : (t.layout codes metadata).importedGlobals = [] := by
  rw [Module.importedGlobals, imports_layout, List.filterMap_map, List.filterMap_eq_nil_iff]
  exact fun _ _ ↦ rfl

theorem globals_layout :
    (t.layout codes metadata).globals = t.slots.map fun _ ↦ ⟨⟨.i32, true⟩, [.i32Const 0]⟩ := by
  rw [Module.globals, flatMap_layout (fun _ _ ↦ rfl) (fun _ ↦ rfl) fun _ ↦ rfl]
  simp [importSection, functionSection, tableSection, memorySection, globalSection, exportSection]

/-- The context of a module whose imports have the types that they are used with. -/
theorem isTypedIn_of_context? (ht : ofProgram h p = .ok t)
    (himports : ∀ u ∈ h.uses p, t.importType? u.1 = some u.2)
    (hc : (t.layout codes metadata).context? = some c) : p.IsTypedIn h t c := by
  simp only [Module.context?, Option.bind_eq_bind, Option.bind_eq_some_iff, Option.pure_def,
    Option.some.injEq, typeGroups_layout, importedFunctions_layout, functions_layout,
    importedGlobals_layout, globals_layout] at hc
  obtain ⟨types, htypes, functions, hfunctions, tables, -, globals, hglobals, tags, -, elements, -,
    rfl⟩ := hc
  have hholds := TypeSpace.holds_of_ofGroups? (isPlain_signatures ht) htypes
  obtain ⟨hlength, hget⟩ := mapM_eq_some hfunctions
  have hfunction {i k : Nat} {type : FuncType}
      (hi : (t.imports.map (·.signature) ++ List.replicate (t.subroutines.length + 1) 0)[i]? =
        some k) (hk : t.signatures[k]? = some type) :
      functions[i]?.bind types.func? = some type := by
    obtain ⟨hfunc, j, hfirst, hj⟩ := hholds.types k type hk
    obtain ⟨j', hj', hbind⟩ := hget hi
    rw [hfunc, Option.bind_some, hfirst] at hbind
    rw [hj', ← Option.some.inj hbind]
    exact hj
  refine ⟨fun u hu i hi ↦ ?_, fun i hi ↦ ?_, ?_, ?_⟩
  · obtain ⟨e, he, -, hfind⟩ := find?_of_importIndex? hi
    have htype := himports u hu
    rw [importType?, hfind, Option.bind_some] at htype
    refine hfunction ?_ htype
    rw [List.getElem?_append_left (by simpa using (List.getElem?_eq_some_iff.mp he).1),
      List.getElem?_map, he, Option.map_some]
  · refine hfunction ?_ (signatures_of_ofProgram ht)
    rw [List.getElem?_append_right (by simp), List.length_map, Nat.add_sub_cancel_left,
      List.getElem?_replicate, if_pos (Nat.lt_succ_of_le hi)]
  · simp only [List.length_append, List.length_map, List.length_replicate] at hlength
    exact hlength.trans (by omega)
  · have hwords : (t.slots.map fun _ ↦ (⟨.i32, true⟩ : GlobalType)).mapM
        (GlobalType.normal? types) = some (t.slots.map fun _ ↦ ⟨.i32, true⟩) := by
      refine mapM_of_forall fun g hg ↦ ?_
      obtain ⟨_, -, rfl⟩ := List.mem_map.mp hg
      rfl
    rw [List.nil_append, List.map_map] at hglobals
    exact Option.some.inj (hglobals.symm.trans hwords)

end Tables

end ScriptWasm
