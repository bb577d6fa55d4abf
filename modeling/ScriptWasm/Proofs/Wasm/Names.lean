import ScriptWasm.Proofs.Wasm.Framing

/-!
# Reading the section of names

A module runs the same whatever its section of names says; the names are for people, and the tools
that show them read the section by the rules of the format. It is cut into numbered parts behind
their sizes. One part names the module, one its functions and one its globals, and each of them may
be missing. Names can be of any length.

The reader here follows these rules only. From a section that was written it gets the names that
were given, if the section is not too large and all indices are words.
-/

namespace ScriptWasm.Wasm

/-- What a section of names says. -/
structure ModuleNames where
  module? : Option String
  functions : List (Nat × String)
  globals : List (Nat × String)
deriving DecidableEq, Repr

/-! ## Reading -/

namespace Take

/-- A text of any length. -/
def text : Take String := do textOf? (← sized)

/-- An index and its name. -/
def indexName : Take (Nat × String) := do
  let i ← word
  let name ← text
  return (i, name)

/-- A number and the contents of the part with this number. -/
def namePart : Take (UInt8 × Bytes) := do
  let id ← byte
  let contents ← sized
  return (id, contents)

end Take

/-- Cuts a section of names into its parts. Every part takes a byte at least, so a number of bytes
bounds the steps. -/
def cutNameParts : Nat → Bytes → Option (List (UInt8 × Bytes))
  | _, [] => some []
  | 0, _ :: _ => none
  | steps + 1, b :: bs =>
    match Take.namePart (b :: bs) with
    | none => none
    | some (part, rest) => (cutNameParts steps rest).map (part :: ·)

/-- What the first part with a number holds; nothing, if there is no such part. -/
def readNamePart? {α : Type} (read : Take α) (parts : List (UInt8 × Bytes)) (id : UInt8) :
    Option (Option α) :=
  match parts.lookup id with
  | none => some none
  | some contents => (Take.whole read contents).map some

namespace ModuleNames

/-- The names in the contents of a section. -/
def ofContents? (contents : Bytes) : Option ModuleNames := do
  let parts ← cutNameParts contents.length contents
  let module? ← readNamePart? Take.text parts 0
  let functions? ← readNamePart? (Take.vec Take.indexName) parts 1
  let globals? ← readNamePart? (Take.vec Take.indexName) parts 7
  return ⟨module?, functions?.getD [], globals?.getD []⟩

/-- The names in the bytes of a module, which its first section of names gives. -/
def ofModule? (bytes : Bytes) : Option ModuleNames :=
  ((customSections bytes).lookup "name").bind ofContents?

end ModuleNames

/-! ## Texts, lists and parts -/

theorem text_encodeName {name : String} (hname : (bytesOf name).length < UInt32.size)
    (rest : Bytes) : Take.text (encodeName name ++ rest) = some (name, rest) := by
  rw [Take.text, encodeName, bind_of_some (sized_encodeBytes hname rest), textOf?_bytesOf]
  rfl

theorem indexName_encode {e : Nat × String} (hindex : e.1 < UInt32.size)
    (hname : (bytesOf e.2).length < UInt32.size) (rest : Bytes) :
    Take.indexName (Leb128.unsigned e.1 ++ encodeName e.2 ++ rest) = some (e, rest) := by
  rw [List.append_assoc, Take.indexName, bind_of_some (word_unsigned hindex _),
    bind_of_some (text_encodeName hname rest)]
  rfl

theorem namePart_encodePart {contents : Bytes} (hcontents : contents.length < UInt32.size)
    (id : UInt8) (rest : Bytes) :
    Take.namePart (encodePart id contents ++ rest) = some ((id, contents), rest) := by
  have hbyte (bs : Bytes) : Take.byte (id :: bs) = some (id, bs) := rfl
  rw [encodePart, List.cons_append, Take.namePart, bind_of_some (hbyte _),
    bind_of_some (sized_encodeBytes hcontents rest)]
  rfl

section Items

variable {α : Type} {read : Take α} {write : α → Bytes} {items : List α}

/-- Items that are read one by one are read one after the other. -/
theorem times_flatMap (hitems : ∀ a ∈ items, ∀ rest, read (write a ++ rest) = some (a, rest))
    (done : List α) (rest : Bytes) :
    Take.times read items.length done (items.flatMap write ++ rest) =
      some (done.reverse ++ items, rest) := by
  induction items generalizing done with
  | nil =>
    rw [List.append_nil]
    rfl
  | cons a items ih =>
    have hfirst := hitems a List.mem_cons_self (items.flatMap write ++ rest)
    have hothers := ih fun b hb ↦ hitems b (List.mem_cons_of_mem _ hb)
    rw [List.length_cons, List.flatMap_cons, List.append_assoc, Take.times, hfirst]
    simp only [hothers, List.reverse_cons, List.append_assoc, List.singleton_append]

theorem vec_encodeVec (hcount : items.length < UInt32.size)
    (hitems : ∀ a ∈ items, ∀ rest, read (write a ++ rest) = some (a, rest)) (rest : Bytes) :
    Take.vec read (encodeVec write items ++ rest) = some (items, rest) := by
  rw [encodeVec, List.append_assoc, Take.vec, bind_of_some (word_unsigned hcount _),
    times_flatMap hitems]
  rfl

theorem whole_of_append {a : α} {bs : Bytes}
    (h : ∀ rest, read (bs ++ rest) = some (a, rest)) : Take.whole read bs = some a := by
  have hall := h []
  rw [List.append_nil] at hall
  rw [Take.whole, hall]

end Items

/-- Every index is written with its name. -/
theorem encodeNames_eq (names : List (Nat × String)) :
    encodeNames names = encodeVec (fun e ↦ Leb128.unsigned e.1 ++ encodeName e.2) names := rfl

theorem length_lt_of_encodeNames {names : List (Nat × String)}
    (hsize : (encodeNames names).length < UInt32.size) : names.length < UInt32.size := by
  have hwrite (e : Nat × String) : Leb128.unsigned e.1 ++ encodeName e.2 ≠ [] :=
    List.append_ne_nil_of_left_ne_nil (unsigned_ne_nil e.1) _
  have hcount := length_le_flatMap hwrite names
  rw [encodeNames_eq, encodeVec, List.length_append] at hsize
  omega

theorem vec_encodeNames {names : List (Nat × String)}
    (hsize : (encodeNames names).length < UInt32.size) (hindices : ∀ e ∈ names, e.1 < UInt32.size)
    (rest : Bytes) : Take.vec Take.indexName (encodeNames names ++ rest) = some (names, rest) := by
  have hcount := length_lt_of_encodeNames hsize
  rw [encodeNames_eq, encodeVec, List.length_append] at hsize
  rw [encodeNames_eq]
  refine vec_encodeVec hcount ?_ rest
  intro e he
  -- a name takes fewer bytes than all of them
  have hwritten := length_le_of_mem_flatMap
    (fun e : Nat × String ↦ Leb128.unsigned e.1 ++ encodeName e.2) he
  rw [List.length_append, encodeName, encodeBytes, List.length_append] at hwritten
  exact indexName_encode (hindices e he) (by omega)

theorem cutNameParts_flatMap {parts : List (UInt8 × Bytes)} {steps : Nat}
    (hparts : ∀ part ∈ parts, part.2.length < UInt32.size) (hsteps : parts.length ≤ steps) :
    cutNameParts steps (parts.flatMap fun part ↦ encodePart part.1 part.2) = some parts := by
  induction parts generalizing steps with
  | nil => rw [List.flatMap_nil, cutNameParts]
  | cons part parts ih =>
    obtain ⟨steps, rfl⟩ := Nat.exists_eq_add_one.mpr (Nat.zero_lt_of_lt hsteps)
    have hfirst := namePart_encodePart (hparts part List.mem_cons_self) part.1
      (parts.flatMap fun part ↦ encodePart part.1 part.2)
    have hothers := ih (fun part hpart ↦ hparts part (List.mem_cons_of_mem _ hpart))
      (Nat.le_of_succ_le_succ hsteps)
    rw [List.flatMap_cons]
    rw [encodePart, List.cons_append] at hfirst ⊢
    rw [cutNameParts, hfirst]
    simp only [hothers, Option.map_some]

/-! ## Written sections -/

/-- The parts of the section that gives names to a module, its functions and its globals. -/
def nameParts (module : String) (functions globals : List (Nat × String)) :
    List (UInt8 × Bytes) :=
  [(0, encodeName module), (1, encodeNames functions), (7, encodeNames globals)]

variable {module : String} {functions globals : List (Nat × String)}

theorem nameSection_eq_custom : nameSection module functions globals =
    .custom "name" ((nameParts module functions globals).flatMap fun part ↦
      encodePart part.1 part.2) := by
  rw [nameSection, nameParts, List.flatMap_cons, List.flatMap_cons, List.flatMap_singleton,
    List.append_assoc]

/-- No part is larger than the section. -/
theorem length_lt_of_mem_nameParts
    (hsize : (nameSection module functions globals).contents.length < UInt32.size) :
    ∀ part ∈ nameParts module functions globals, part.2.length < UInt32.size := by
  intro part hpart
  have hwritten := length_le_of_mem_flatMap
    (fun part : UInt8 × Bytes ↦ encodePart part.1 part.2) hpart
  rw [encodePart, List.length_cons, encodeBytes, List.length_append] at hwritten
  rw [nameSection_eq_custom, Section.contents, List.length_append] at hsize
  omega

/-- What is read from a section of names is what was written into it. -/
theorem ModuleNames.ofContents?_nameSection
    (hsize : (nameSection module functions globals).contents.length < UInt32.size)
    (hfunctions : ∀ e ∈ functions, e.1 < UInt32.size)
    (hglobals : ∀ e ∈ globals, e.1 < UInt32.size) :
    ∃ contents, nameSection module functions globals = .custom "name" contents ∧
      ofContents? contents = some ⟨some module, functions, globals⟩ := by
  refine ⟨_, nameSection_eq_custom, ?_⟩
  have hparts := length_lt_of_mem_nameParts hsize
  have hwrite (part : UInt8 × Bytes) : encodePart part.1 part.2 ≠ [] := List.cons_ne_nil _ _
  have hcut := cutNameParts_flatMap hparts (length_le_flatMap hwrite _)
  simp only [nameParts, List.forall_mem_cons] at hparts
  obtain ⟨hmoduleSize, hfunctionsSize, hglobalsSize, -⟩ := hparts
  have hname : (bytesOf module).length < UInt32.size := by
    rw [encodeName, encodeBytes, List.length_append] at hmoduleSize
    omega
  have hmodule : Take.whole Take.text (encodeName module) = some module :=
    whole_of_append (text_encodeName hname)
  have hreadFunctions : Take.whole (Take.vec Take.indexName) (encodeNames functions) =
      some functions := whole_of_append (vec_encodeNames hfunctionsSize hfunctions)
  have hreadGlobals : Take.whole (Take.vec Take.indexName) (encodeNames globals) =
      some globals := whole_of_append (vec_encodeNames hglobalsSize hglobals)
  rw [ofContents?, hcut]
  simp [readNamePart?, nameParts, List.lookup_cons, hmodule, hreadFunctions, hreadGlobals]

end ScriptWasm.Wasm
