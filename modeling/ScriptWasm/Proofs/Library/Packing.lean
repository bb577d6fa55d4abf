import ScriptWasm.Library.Package
import ScriptWasm.Proofs.Json.Reading
import ScriptWasm.Proofs.Json.Results
import ScriptWasm.Proofs.Wasm.Framing

/-!
# Packing a library loses nothing

A manifest is packed by writing it as JSON into a section of a module that holds nothing else, and
unpacked by reading the section again. The way back starts with bytes: they are a valid module, its
one custom section is found, and what is in it is read.

A manifest that is read has the members that were written, and the defaults of those that were not.
Only names are left out, and their default is that there is none. The one thing that writing can
blur is a type: it is written by its name, and an other type must not have the name of one that
programs know. What is read from anywhere is proper in this sense.
-/

namespace ScriptWasm

open Json Wasm Json.Reader

/-! ## Proper manifests

A type that programs cannot express is written by its name. It must not be the name of another type.
-/

/-- The names that stand for types of their own. -/
def TypeRef.reserved : List String := ["void", "Primitive", "text", "number", "boolean", "Callback"]

/-- No other type has a reserved name. -/
def TypeRef.IsProper (t : TypeRef) : Prop := ∀ name ∈ reserved, t ≠ .other name

def MethodDecl.IsProper (m : MethodDecl) : Prop :=
  m.returns.IsProper ∧ ∀ t ∈ m.params, t.IsProper

def PropertyDecl.IsProper (p : PropertyDecl) : Prop := p.type.IsProper

def EventDecl.IsProper (e : EventDecl) : Prop := e.handler.IsProper

def TypeDecl.IsProper (t : TypeDecl) : Prop :=
  (∀ m ∈ t.methods, m.IsProper) ∧ (∀ p ∈ t.properties, p.IsProper) ∧ ∀ e ∈ t.events, e.IsProper

/-- No type that the manifest mentions is an other type with a reserved name. -/
def Manifest.IsProper (m : Manifest) : Prop := ∀ t ∈ m.types, t.IsProper

instance (t : TypeRef) : Decidable t.IsProper :=
  inferInstanceAs (Decidable (∀ name ∈ TypeRef.reserved, t ≠ .other name))

instance (m : MethodDecl) : Decidable m.IsProper :=
  inferInstanceAs (Decidable (m.returns.IsProper ∧ ∀ t ∈ m.params, t.IsProper))

instance (p : PropertyDecl) : Decidable p.IsProper := inferInstanceAs (Decidable p.type.IsProper)

instance (e : EventDecl) : Decidable e.IsProper := inferInstanceAs (Decidable e.handler.IsProper)

instance (t : TypeDecl) : Decidable t.IsProper :=
  inferInstanceAs (Decidable ((∀ m ∈ t.methods, m.IsProper) ∧ (∀ p ∈ t.properties, p.IsProper) ∧
    ∀ e ∈ t.events, e.IsProper))

instance (m : Manifest) : Decidable m.IsProper :=
  inferInstanceAs (Decidable (∀ t ∈ m.types, t.IsProper))

theorem TypeRef.ofName_name {t : TypeRef} (ht : t.IsProper) : ofName t.name = t := by
  cases t with
  | other name =>
    have hne (word : String) (hword : word ∈ reserved) : name ≠ word :=
      fun heq ↦ ht word hword (congrArg _ heq)
    rw [TypeRef.name, ofName, if_neg (hne _ (by decide)), if_neg (hne _ (by decide)),
      if_neg (hne _ (by decide)), if_neg (hne _ (by decide)), if_neg (hne _ (by decide)),
      if_neg (hne _ (by decide))]
  | _ => rfl

theorem TypeRef.name_ofName (name : String) : (ofName name).name = name := by
  grind [ofName, TypeRef.name]

theorem TypeRef.isProper_ofName (name : String) : (ofName name).IsProper := by
  intro word hword heq
  have hother : ∀ word ∈ reserved, ofName word ≠ .other word := by decide
  -- a name that stands for an other type stands for the one of that name
  have hname : name = word := by
    rw [← name_ofName name, heq, TypeRef.name]
  exact hother word hword (hname ▸ heq)

/-! ## The forms of manifests -/

section Forms

variable {R : Type → Type} [Source R] [LawfulSource R]

open LawfulSource

theorem TypeRef.reads_form {t : TypeRef} (ht : t.IsProper) :
    Reads (R := R) TypeRef.form t.toValue t := by
  have h : Reads (R := R) TypeRef.form t.toValue (ofName t.name) :=
    LawfulSource.map ofName (LawfulSource.text t.name)
  rwa [ofName_name ht] at h

/-- A name that is left out is left blank. -/
theorem fills_givenName {σ : Type} {ms : List (Member R σ)} {s s' : σ}
    {entries : List (String × Json.Value)} {store : Option String → σ → σ} (member : String)
    (given : Option String) (hblank : store none s = s)
    (hrest : Fills Reads ms (store given s) entries s') :
    Fills Reads (.defaulted member (Source.optional Source.text) store :: ms) s
      (givenName member given ++ entries) s' := by
  cases given with
  | none =>
    rw [hblank] at hrest
    exact .omitted rfl hrest
  | some name => exact .defaulted (optional_some nofun (text name)) hrest

theorem fills_givenName_last {σ : Type} {s : σ} {store : Option String → σ → σ} (member : String)
    (given : Option String) (hblank : store none s = s) :
    Fills (Reads (R := R)) [.defaulted member (Source.optional Source.text) store] s
      (givenName member given) (store given s) := by
  have h : Fills (Reads (R := R)) _ s (givenName member given ++ []) (store given s) :=
    fills_givenName member given hblank .nil
  rwa [List.append_nil] at h

theorem MethodDecl.reads_form {m : MethodDecl} (hm : m.IsProper) :
    Reads (R := R) MethodDecl.form m.toValue m := by
  refine record (by simp [Member.needed, Member.defaulted]) ?_
  refine .needed (text _) ?_
  refine .defaulted (list_map fun t ht ↦ TypeRef.reads_form (hm.2 t ht)) ?_
  refine .defaulted (TypeRef.reads_form hm.1) ?_
  refine .defaulted (boolean _) <| .defaulted (boolean _) <| .defaulted (boolean _) <|
    .defaulted (boolean _) <| .defaulted (boolean _) ?_
  exact fills_givenName_last _ _ rfl

theorem PropertyDecl.reads_form {p : PropertyDecl} (hp : p.IsProper) :
    Reads (R := R) PropertyDecl.form p.toValue p := by
  refine record (by simp [Member.needed, Member.defaulted]) ?_
  refine .needed (text _) <| .needed (TypeRef.reads_form hp) ?_
  refine .defaulted (boolean _) <| .defaulted (boolean _) <| .defaulted (boolean _) <|
    .defaulted (boolean _) <| .defaulted (boolean _) ?_
  exact fills_givenName _ _ rfl (fills_givenName_last _ _ rfl)

theorem EventDecl.reads_form {e : EventDecl} (he : e.IsProper) :
    Reads (R := R) EventDecl.form e.toValue e := by
  refine record (by simp [Member.needed, Member.defaulted]) ?_
  refine .needed (text _) <| .needed (TypeRef.reads_form he) ?_
  refine .defaulted (boolean _) <| .defaulted (boolean _) <| .defaulted (boolean _) ?_
  exact fills_givenName_last _ _ rfl

theorem TypeDecl.reads_form {t : TypeDecl} (ht : t.IsProper) :
    Reads (R := R) TypeDecl.form t.toValue t := by
  obtain ⟨hmethods, hproperties, hevents⟩ := ht
  refine record (by simp [Member.needed, Member.defaulted]) ?_
  refine .needed (text _) ?_
  refine .defaulted (boolean _) <| .defaulted (boolean _) <| .defaulted (boolean _) ?_
  refine .defaulted (list_map fun m hm ↦ MethodDecl.reads_form (hmethods m hm)) ?_
  refine .defaulted (list_map fun p hp ↦ PropertyDecl.reads_form (hproperties p hp)) ?_
  exact .defaulted (list_map fun e he ↦ EventDecl.reads_form (hevents e he)) .nil

theorem Manifest.reads_form {m : Manifest} (hm : m.IsProper) :
    Reads (R := R) Manifest.form m.toValue m := by
  rw [Manifest.toValue, List.append_assoc]
  refine record (by simp [Member.defaulted]) ?_
  refine fills_givenName _ _ rfl <| fills_givenName _ _ rfl ?_
  exact .defaulted (list_map fun t ht ↦ TypeDecl.reads_form (hm t ht)) .nil

end Forms

/-! ## What is read is proper -/

theorem TypeRef.yields_form : Yields TypeRef.form TypeRef.IsProper :=
  yields_map (yields_true _) fun name _ ↦ isProper_ofName name

theorem MethodDecl.yields_form : Yields MethodDecl.form MethodDecl.IsProper := by
  have hvoid : TypeRef.void.IsProper := by decide
  refine yields_record ⟨hvoid, fun _ ht ↦ absurd ht List.not_mem_nil⟩ ?_
  refine keeps_needed (yields_true _) (fun _ _ _ hs ↦ hs) ?_
  refine keeps_defaulted (yields_list TypeRef.yields_form) (fun _ hts _ hs ↦ ⟨hs.1, hts⟩) ?_
  refine keeps_defaulted TypeRef.yields_form (fun _ ht _ hs ↦ ⟨ht, hs.2⟩) ?_
  exact keeps_aside (fun _ _ hs ↦ hs) <| keeps_aside (fun _ _ hs ↦ hs) <|
    keeps_aside (fun _ _ hs ↦ hs) <| keeps_aside (fun _ _ hs ↦ hs) <|
    keeps_aside (fun _ _ hs ↦ hs) <| keeps_aside (fun _ _ hs ↦ hs) keeps_nil

theorem PropertyDecl.yields_form : Yields PropertyDecl.form PropertyDecl.IsProper := by
  have hvoid : TypeRef.void.IsProper := by decide
  refine yields_record hvoid ?_
  refine keeps_needed (yields_true _) (fun _ _ _ hs ↦ hs) ?_
  refine keeps_needed TypeRef.yields_form (fun _ ht _ _ ↦ ht) ?_
  exact keeps_aside (fun _ _ hs ↦ hs) <| keeps_aside (fun _ _ hs ↦ hs) <|
    keeps_aside (fun _ _ hs ↦ hs) <| keeps_aside (fun _ _ hs ↦ hs) <|
    keeps_aside (fun _ _ hs ↦ hs) <| keeps_aside (fun _ _ hs ↦ hs) <|
    keeps_aside (fun _ _ hs ↦ hs) keeps_nil

theorem EventDecl.yields_form : Yields EventDecl.form EventDecl.IsProper := by
  have hvoid : TypeRef.void.IsProper := by decide
  refine yields_record hvoid ?_
  refine keeps_needed (yields_true _) (fun _ _ _ hs ↦ hs) ?_
  refine keeps_needed TypeRef.yields_form (fun _ ht _ _ ↦ ht) ?_
  exact keeps_aside (fun _ _ hs ↦ hs) <| keeps_aside (fun _ _ hs ↦ hs) <|
    keeps_aside (fun _ _ hs ↦ hs) <| keeps_aside (fun _ _ hs ↦ hs) keeps_nil

theorem TypeDecl.yields_form : Yields TypeDecl.form TypeDecl.IsProper := by
  have hnil {α : Type} {P : α → Prop} : ∀ a ∈ ([] : List α), P a :=
    fun _ ha ↦ absurd ha List.not_mem_nil
  refine yields_record ⟨hnil, hnil, hnil⟩ ?_
  refine keeps_needed (yields_true _) (fun _ _ _ hs ↦ hs) ?_
  refine keeps_aside (fun _ _ hs ↦ hs) <| keeps_aside (fun _ _ hs ↦ hs) <|
    keeps_aside (fun _ _ hs ↦ hs) ?_
  refine keeps_defaulted (yields_list MethodDecl.yields_form)
    (fun _ hms _ hs ↦ ⟨hms, hs.2.1, hs.2.2⟩) ?_
  refine keeps_defaulted (yields_list PropertyDecl.yields_form)
    (fun _ hps _ hs ↦ ⟨hs.1, hps, hs.2.2⟩) ?_
  exact keeps_defaulted (yields_list EventDecl.yields_form)
    (fun _ hes _ hs ↦ ⟨hs.1, hs.2.1, hes⟩) keeps_nil

theorem Manifest.yields_form : Yields Manifest.form Manifest.IsProper := by
  refine yields_record (fun _ ht ↦ absurd ht List.not_mem_nil) ?_
  refine keeps_aside (fun _ _ hs ↦ hs) <| keeps_aside (fun _ _ hs ↦ hs) ?_
  exact keeps_defaulted (yields_list TypeDecl.yields_form) (fun _ hts _ _ ↦ hts) keeps_nil

/-! ## Nesting -/

theorem membersDepth_givenName (member : String) (given : Option String) :
    membersDepth (givenName member given) = 0 := by
  cases given <;> rfl

theorem MethodDecl.depth_toValue (m : MethodDecl) : m.toValue.depth ≤ 2 := by
  have hparams : itemsDepth (m.params.map TypeRef.toValue) ≤ 0 :=
    itemsDepth_map_le fun _ _ ↦ Nat.le_refl 0
  simp only [MethodDecl.toValue, Value.depth, membersDepth_append, membersDepth_givenName,
    membersDepth, TypeRef.toValue]
  omega

theorem PropertyDecl.depth_toValue (p : PropertyDecl) : p.toValue.depth ≤ 1 := by
  simp only [PropertyDecl.toValue, Value.depth, membersDepth_append, membersDepth_givenName,
    membersDepth, TypeRef.toValue]
  omega

theorem EventDecl.depth_toValue (e : EventDecl) : e.toValue.depth ≤ 1 := by
  simp only [EventDecl.toValue, Value.depth, membersDepth_append, membersDepth_givenName,
    membersDepth, TypeRef.toValue]
  omega

theorem TypeDecl.depth_toValue (t : TypeDecl) : t.toValue.depth ≤ 4 := by
  have hmethods : itemsDepth (t.methods.map MethodDecl.toValue) ≤ 2 :=
    itemsDepth_map_le fun m _ ↦ m.depth_toValue
  have hproperties : itemsDepth (t.properties.map PropertyDecl.toValue) ≤ 1 :=
    itemsDepth_map_le fun p _ ↦ p.depth_toValue
  have hevents : itemsDepth (t.events.map EventDecl.toValue) ≤ 1 :=
    itemsDepth_map_le fun e _ ↦ e.depth_toValue
  simp only [TypeDecl.toValue, Value.depth, membersDepth]
  omega

theorem Manifest.depth_toValue (m : Manifest) : m.toValue.depth ≤ 6 := by
  have htypes : itemsDepth (m.types.map TypeDecl.toValue) ≤ 4 :=
    itemsDepth_map_le fun t _ ↦ t.depth_toValue
  simp only [Manifest.toValue, Value.depth, membersDepth_append, membersDepth_givenName,
    membersDepth]
  omega

/-! ## Packed manifests -/

namespace Manifest

/-- The section that a manifest is packed in. -/
def packedSection (m : Manifest) : Section := .custom sectionName (bytesOf m.toValue.write)

/-- A module that consists of a custom section is valid. -/
theorem isValidBinary_encode_custom {name : String} {contents : Bytes}
    (hname : (bytesOf name).length ≤ longestName)
    (hlength : (Section.custom name contents).contents.length < UInt32.size) :
    isValidBinary (Module.encode [.custom name contents]) = true := by
  have hcut := cutBinary?_encode (m := [.custom name contents]) fun s hs ↦
    List.mem_singleton.mp hs ▸ hlength
  have hcustom : Take.custom (encodeName name ++ contents) = some ((name, contents), []) := by
    rw [Take.custom, name_encodeName hname contents]
    rfl
  have hdecode : Section.decode? 0 (encodeName name ++ contents) =
      some (.custom name contents) := by
    rw [Section.decode?, Take.whole, hcustom]
    rfl
  have hsections : Module.ofSections? ([Section.custom name contents].map Section.raw) =
      some [.custom name contents] := by
    have hraw : Section.decode? (Section.custom name contents).raw.id
        (Section.custom name contents).raw.contents = some (.custom name contents) := hdecode
    simp only [Module.ofSections?, List.map_cons, List.map_nil, List.mapM_cons, List.mapM_nil, hraw]
    rfl
  have hvalid : Module.isValid [.custom name contents] = true := rfl
  rw [isValidBinary, Binary.decode?, Binary.decodeWithin?, hcut]
  simp only [hsections]
  exact hvalid

theorem length_sectionName : (bytesOf sectionName).length ≤ longestName := by
  rw [bytesOf_eq_flatMap]
  decide

theorem customSections_pack {m : Manifest}
    (hsize : m.packedSection.contents.length < UInt32.size) :
    customSections m.pack = [(sectionName, bytesOf m.toValue.write)] := by
  refine customSections_encode (m := [m.packedSection]) fun s hs ↦ ?_
  obtain rfl := List.mem_singleton.mp hs
  exact ⟨hsize, length_sectionName⟩

/-- A manifest can be packed if its text is not too long. -/
theorem length_packedSection_lt {m : Manifest}
    (hwidth : m.toValue.width + 100 < UInt32.size) :
    m.packedSection.contents.length < UInt32.size := by
  have hname : (encodeName sectionName).length ≤ 100 := by decide +kernel
  have hvalue : (bytesOf m.toValue.write).length ≤ m.toValue.width := m.toValue.length_bytes_le
  rw [packedSection, Section.contents, List.length_append]
  omega

theorem ofModule?_of_isProper {m : Manifest} (hm : m.IsProper)
    (hsize : m.packedSection.contents.length < UInt32.size) : ofModule? m.pack = .ok (some m) := by
  have hvalid : isValidBinary m.pack = true :=
    isValidBinary_encode_custom length_sectionName hsize
  have hread : Reader.run form (bytesOf m.toValue.write) = .ok m :=
    Reader.run_of_reads (reads_form hm) (Nat.lt_of_le_of_lt m.depth_toValue (by decide))
  rw [ofModule?, if_pos hvalid, customSections_pack hsize, List.lookup_cons, beq_self_eq_true]
  simp only [hread]

/-- Every manifest that is read from anywhere is proper, and a proper manifest that fits into a
section is unpacked as it was packed. -/
theorem ofModule?_pack :
    (∀ contents m, Reader.run form contents = .ok m → m.IsProper) ∧
      ∀ m : Manifest, m.IsProper → m.packedSection.contents.length < UInt32.size →
        ofModule? m.pack = .ok (some m) :=
  ⟨fun _ _ h ↦ property_of_run yields_form h, fun _ ↦ ofModule?_of_isProper⟩

/-- A manifest with quotes, escapes and letters of all lengths, with names left out and flags
against their defaults. -/
def quoting : Manifest where
  primitive? := some ""
  types :=
    [{ name := "a\"b\\c\n\x01é€😀"
       isVisible := false
       methods :=
         [{ name := "M", params := [.other "Void", .text, .callback], isStatic := false },
           { name := "\t", returns := .other "", isGeneric := true, field? := some "\x7f" }]
       properties := [{ name := "P", type := .primitive, readable := false, setter? := some "s" }]
       events := [{ name := "E", handler := .callback, isPublic := false }] },
      { name := "", isLibraryType := true }]

theorem quoting_ofModule?_pack :
    quoting.IsProper ∧ quoting.packedSection.contents.length < UInt32.size ∧
      ofModule? quoting.pack = .ok (some quoting) := by
  have hproper : quoting.IsProper := by decide
  have hsize := length_packedSection_lt (m := quoting) (by decide +kernel)
  exact ⟨hproper, hsize, ofModule?_pack.2 quoting hproper hsize⟩

end Manifest

end ScriptWasm
