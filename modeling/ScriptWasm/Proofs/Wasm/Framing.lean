import ScriptWasm.Proofs.Text.Utf8
import ScriptWasm.Wasm.Container
import ScriptWasm.Wasm.Encode

/-!
# Written modules can be cut

A module is written as sections behind their sizes. Whoever cuts its bytes gets the same sections
back, if all sizes and counts are words; and since every section opens as it should, the custom
sections that are found are the ones of the module, all of them and in order.
-/

namespace ScriptWasm.Wasm

/-! ## Numbers -/

theorem readUnsigned_last {width n : Nat} (hn : n < 128) (hwidth : n < Nat.pow 2 width)
    (rest : Bytes) : Leb128.readUnsigned width (UInt8.ofNat n :: rest) = some (n, rest) := by
  have hbyte : (UInt8.ofNat n).toNat = n :=
    UInt8.toNat_ofNat_of_lt' (Nat.lt_trans hn (by decide))
  have hfits : ¬(width < 7 ∧ Nat.pow 2 width ≤ n) := fun h ↦ Nat.not_le.mpr hwidth h.2
  rw [Leb128.readUnsigned, hbyte, if_pos hn, if_neg hfits]

theorem readUnsigned_unsignedGroups {width more n : Nat} (hwidth : n < Nat.pow 2 width)
    (hmore : n < Nat.pow 128 (more + 1)) (rest : Bytes) :
    Leb128.readUnsigned width (Leb128.unsignedGroups more n ++ rest) = some (n, rest) := by
  induction more generalizing n width with
  | zero => exact readUnsigned_last hmore hwidth rest
  | succ more ih =>
    rw [Leb128.unsignedGroups]
    by_cases hsmall : n < 128
    · rw [if_pos hsmall]
      exact readUnsigned_last hsmall hwidth rest
    · have hbyte : (UInt8.ofNat (n % 128 + 128)).toNat = n % 128 + 128 :=
        UInt8.toNat_ofNat_of_lt' (Nat.add_lt_add_right (Nat.mod_lt n (by decide)) 128)
      -- a number of more than one group is wider than a group
      have hwide : 7 < width := by
        refine Nat.lt_of_not_le fun hle ↦ hsmall ?_
        exact Nat.lt_of_lt_of_le hwidth (Nat.pow_le_pow_right (by decide) hle)
      obtain ⟨width, rfl⟩ := Nat.exists_eq_add_of_le' (Nat.le_of_lt hwide)
      have hrest : Leb128.readUnsigned width (Leb128.unsignedGroups more (n / 128) ++ rest) =
          some (n / 128, rest) := by
        refine ih ?_ ?_
        · refine (Nat.div_lt_iff_lt_mul (by decide)).mpr (Nat.lt_of_lt_of_eq hwidth ?_)
          exact Nat.pow_add 2 width 7
        · exact (Nat.div_lt_iff_lt_mul (by decide)).mpr hmore
      have hmore' : ¬n % 128 + 128 < 128 := by omega
      have hwide' : ¬width + 7 ≤ 7 := by omega
      rw [if_neg hsmall, List.cons_append, Leb128.readUnsigned, hbyte, if_neg hmore',
        if_neg hwide', Nat.add_sub_cancel, Nat.add_sub_cancel, hrest, Option.map_some]
      exact congrArg (fun n ↦ some (n, rest)) (Nat.div_add_mod' n 128)

theorem word_unsigned {n : Nat} (hn : n < UInt32.size) (rest : Bytes) :
    Take.word (Leb128.unsigned n ++ rest) = some (n, rest) :=
  readUnsigned_unsignedGroups hn (Nat.lt_trans hn (by decide)) rest

theorem bytes_append (front rest : Bytes) :
    Take.bytes front.length (front ++ rest) = some (front, rest) := by
  rw [Take.bytes, List.take_left, List.drop_left]
  simp only [Nat.lt_irrefl, if_false]

theorem bind_of_some {α β : Type} {read : Take α} {next : α → Take β} {bs rest : Bytes} {a : α}
    (h : read bs = some (a, rest)) : (read >>= next) bs = next a rest :=
  congrArg (·.bind fun r ↦ next r.1 r.2) h

theorem sized_encodeBytes {bs : Bytes} (hbs : bs.length < UInt32.size) (rest : Bytes) :
    Take.sized (encodeBytes bs ++ rest) = some (bs, rest) := by
  rw [encodeBytes, List.append_assoc, Take.sized, bind_of_some (word_unsigned hbs _), bytes_append]

theorem name_encodeName {name : String} (hname : (bytesOf name).length ≤ longestName)
    (rest : Bytes) : Take.name (encodeName name ++ rest) = some (name, rest) := by
  have hlength : (bytesOf name).length < UInt32.size := Nat.lt_of_le_of_lt hname (by decide)
  have hpass : (guard ((bytesOf name).length ≤ longestName) : Take Unit) = pure () :=
    if_pos hname
  have hguard (bs : Bytes) :
      (guard ((bytesOf name).length ≤ longestName) : Take Unit) bs = some ((), bs) := by
    rw [hpass]
    rfl
  rw [encodeName, encodeBytes, List.append_assoc, Take.name,
    bind_of_some (word_unsigned hlength _), bind_of_some (hguard _),
    bind_of_some (bytes_append _ _), textOf?_bytesOf]
  rfl

/-! ## Sections -/

/-- A section as it is found in bytes. -/
def Section.raw (s : Section) : RawSection := ⟨s.id, s.contents, 0⟩

theorem Section.id_lt (s : Section) : s.id < 128 := by
  refine of_decide_eq_true ?_
  cases s <;> rfl

theorem cutSection_encode {kind : BinaryKind} {slack? : Option Nat} {s : Section}
    (hs : s.contents.length < UInt32.size) (rest : Bytes) :
    cutSection kind slack? (s.encode ++ rest) = some (s.raw, rest) := by
  rw [Section.encode, encodeBytes, List.cons_append, List.append_assoc, cutSection,
    word_unsigned hs]
  simp only [List.take_left, List.drop_left, Nat.sub_self, decide_true, Bool.true_or, Bool.and_true,
    s.id_lt, if_true]
  rfl

theorem cutSections_of_cutSection {kind : BinaryKind} {slack? : Option Nat} {bs rest : Bytes}
    {s : RawSection} (h : cutSection kind slack? bs = some (s, rest)) (steps : Nat)
    (done : List RawSection) :
    cutSections kind slack? (steps + 1) done bs =
      cutSections kind slack? steps (s :: done) rest := by
  cases bs with
  | nil => cases h
  | cons b bs =>
    rw [cutSections, h]
    exact List.cons_ne_nil b bs

theorem cutSections_encode {kind : BinaryKind} {slack? : Option Nat} {m : Module}
    (hm : ∀ s ∈ m, s.contents.length < UInt32.size) {steps : Nat} (hsteps : m.length ≤ steps)
    (done : List RawSection) :
    cutSections kind slack? steps done (m.flatMap Section.encode) =
      (done.reverse ++ m.map Section.raw, true) := by
  induction m generalizing steps done with
  | nil =>
    rw [List.flatMap_nil, cutSections, List.map_nil, List.append_nil]
  | cons s m ih =>
    obtain ⟨steps, rfl⟩ := Nat.exists_eq_add_one.mpr (Nat.zero_lt_of_lt hsteps)
    have hlength := hm s List.mem_cons_self
    rw [List.flatMap_cons, cutSections_of_cutSection (cutSection_encode hlength _),
      ih (fun s hs ↦ hm s (List.mem_cons_of_mem _ hs)) (Nat.le_of_succ_le_succ hsteps),
      List.reverse_cons, List.append_assoc, List.map_cons, List.singleton_append]

theorem littleEndian_append (front rest : Bytes) :
    Take.littleEndian front.length (front ++ rest) =
      some (front.foldr (fun b n ↦ n * 256 + b.toNat) 0, rest) := by
  rw [Take.littleEndian, bind_of_some (bytes_append front rest)]
  rfl

theorem header_append (rest : Bytes) :
    Take.header (Module.header ++ rest) = some (⟨.module, 1⟩, rest) := by
  -- four bytes of magic, two of the version, and two that tell modules from components
  have hmagic : Take.bytes 4 (Module.header ++ rest) = _ :=
    bytes_append [0x00, 0x61, 0x73, 0x6d] ([0x01, 0x00] ++ ([0x00, 0x00] ++ rest))
  have hguard (bs : Bytes) : (guard (([0x00, 0x61, 0x73, 0x6d] : Bytes) =
      [0x00, 0x61, 0x73, 0x6d]) : Take Unit) bs = some ((), bs) := rfl
  have hversion : Take.littleEndian 2 ([0x01, 0x00] ++ ([0x00, 0x00] ++ rest)) = some (1, _) :=
    littleEndian_append [0x01, 0x00] _
  have hkind : Take.littleEndian 2 ([0x00, 0x00] ++ rest) = some (0, rest) :=
    littleEndian_append [0x00, 0x00] rest
  rw [Take.header, bind_of_some hmagic, bind_of_some (hguard _), bind_of_some hversion,
    bind_of_some hkind]
  rfl

theorem cutBinary?_encode {m : Module} (hm : ∀ s ∈ m, s.contents.length < UInt32.size) :
    cutBinary? none m.encode = some (⟨.module, 1⟩, m.map Section.raw, true) := by
  -- the steps are counted by bytes, and every section has some
  have hsteps : m.length ≤ (m.flatMap Section.encode).length :=
    length_le_flatMap (fun _ ↦ List.cons_ne_nil _ _) m
  rw [cutBinary?, Module.encode, header_append]
  simp only [cutSections_encode hm hsteps]
  rfl

/-! ## What opens a section

A reader that passes over sections looks at the count in front of a list, and the counts are words
because nothing that is listed is written as no bytes at all. -/

theorem unsigned_ne_nil (n : Nat) : Leb128.unsigned n ≠ [] := by
  rw [Leb128.unsigned, Leb128.unsignedGroups]
  split
  · exact List.cons_ne_nil _ _
  · exact List.cons_ne_nil _ _

theorem encodeName_ne_nil (name : String) : encodeName name ≠ [] :=
  List.append_ne_nil_of_left_ne_nil (unsigned_ne_nil _) _

theorem CompositeType.encode_ne_nil (t : CompositeType) : t.encode ≠ [] := by
  cases t <;> exact List.cons_ne_nil _ _

theorem SubType.encode_ne_nil (t : SubType) : t.encode ≠ [] := by
  rw [SubType.encode.eq_def]
  split
  · exact CompositeType.encode_ne_nil _
  · exact List.cons_ne_nil _ _

theorem encodeGroup_ne_nil (group : TypeGroup) : encodeGroup group ≠ [] := by
  rw [encodeGroup.eq_def]
  split
  · exact SubType.encode_ne_nil _
  · exact List.cons_ne_nil _ _

theorem Import.encode_ne_nil (i : Import) : i.encode ≠ [] :=
  List.append_ne_nil_of_left_ne_nil
    (List.append_ne_nil_of_left_ne_nil (encodeName_ne_nil i.module) _) _

theorem Export.encode_ne_nil (e : Export) : e.encode ≠ [] :=
  List.append_ne_nil_of_left_ne_nil (encodeName_ne_nil e.name) _

theorem MemoryType.encode_ne_nil (t : MemoryType) : t.encode ≠ [] := List.cons_ne_nil _ _

theorem encodeTag_ne_nil (type : Nat) : encodeTag type ≠ [] := List.cons_ne_nil _ _

theorem Table.encode_ne_nil (t : Table) : t.encode ≠ [] := by
  rw [Table.encode]
  split
  · exact List.append_ne_nil_of_right_ne_nil _ (List.cons_ne_nil _ _)
  · exact List.cons_ne_nil _ _

theorem Global.encode_ne_nil (g : Global) : g.encode ≠ [] :=
  List.append_ne_nil_of_left_ne_nil
    (List.append_ne_nil_of_right_ne_nil _ (List.cons_ne_nil _ _)) _

theorem Element.encode_ne_nil (e : Element) : e.encode ≠ [] := by
  rw [Element.encode]
  split <;> split <;> exact List.cons_ne_nil _ _

theorem Data.encode_ne_nil (d : Data) : d.encode ≠ [] := by
  rw [Data.encode]
  split <;> exact List.cons_ne_nil _ _

theorem Code.encode_ne_nil (c : Code) : c.encode ≠ [] :=
  List.append_ne_nil_of_left_ne_nil (unsigned_ne_nil _) _

theorem word_encodeVec {α : Type} {write : α → Bytes} (hwrite : ∀ a, write a ≠ []) {items : List α}
    (hlength : (encodeVec write items).length < UInt32.size) :
    Take.word (encodeVec write items) = some (items.length, items.flatMap write) := by
  have hcount : items.length < UInt32.size := by
    have := length_le_flatMap hwrite items
    rw [encodeVec, List.length_append] at hlength
    omega
  exact word_unsigned hcount _

theorem skipSized_flatMap {α : Type} {body : α → Bytes} {items : List α}
    (h : (items.flatMap fun a ↦ encodeBytes (body a)).length < UInt32.size) :
    skipSized items.length (items.flatMap fun a ↦ encodeBytes (body a)) = true := by
  have hbody (a : α) (ha : a ∈ items) : (body a).length < UInt32.size := by
    have hwritten := length_le_of_mem_flatMap (fun a ↦ encodeBytes (body a)) ha
    rw [encodeBytes, List.length_append] at hwritten
    omega
  clear h
  induction items with
  | nil => rfl
  | cons a items ih =>
    rw [List.flatMap_cons, List.length_cons, skipSized,
      sized_encodeBytes (hbody a List.mem_cons_self)]
    exact ih fun b hb ↦ hbody b (List.mem_cons_of_mem _ hb)

/-- Functions fill their section: they are passed over one by one, by their sizes. -/
theorem RawSection.opens_code {contents rest : Bytes} {count : Nat}
    (h : Take.word contents = some (count, rest)) :
    (⟨10, contents, 0⟩ : RawSection).opens .module = skipSized count rest := by
  simp [RawSection.opens, h]

/-- The numbers and names that a section holds by themselves can be read. -/
def Section.opensWell : Section → Prop
  | .custom name _ => (bytesOf name).length ≤ longestName
  | .start f => f < UInt32.size
  | .dataCount n => n < UInt32.size
  | _ => True

theorem Section.opens_raw {s : Section} (hlength : s.contents.length < UInt32.size)
    (hs : s.opensWell) : s.raw.opens .module = true := by
  have hlist {α : Type} {write : α → Bytes} (hwrite : ∀ a, write a ≠ []) {items : List α}
      (h : (encodeVec write items).length < UInt32.size) :
      (Take.word (encodeVec write items)).isSome = true := by
    rw [word_encodeVec hwrite h]
    rfl
  have hnumber {n : Nat} (hn : n < UInt32.size) :
      (Take.whole Take.word (Leb128.unsigned n)).isSome = true := by
    have hword := word_unsigned hn []
    rw [List.append_nil] at hword
    rw [Take.whole, hword]
    rfl
  cases s with
  | custom name contents =>
    have hname := name_encodeName hs contents
    exact congrArg Option.isSome hname
  | types groups => exact hlist encodeGroup_ne_nil hlength
  | imports is => exact hlist Import.encode_ne_nil hlength
  | functions ts => exact hlist unsigned_ne_nil hlength
  | tables ts => exact hlist Table.encode_ne_nil hlength
  | memories ms => exact hlist MemoryType.encode_ne_nil hlength
  | tags ts => exact hlist encodeTag_ne_nil hlength
  | globals gs => exact hlist Global.encode_ne_nil hlength
  | exports es => exact hlist Export.encode_ne_nil hlength
  | start f => exact hnumber hs
  | elements es => exact hlist Element.encode_ne_nil hlength
  | dataCount n => exact hnumber hs
  | code cs =>
    have hcodes : (cs.flatMap Code.encode).length < UInt32.size := by
      have hcontents : (encodeVec Code.encode cs).length < UInt32.size := hlength
      rw [encodeVec, List.length_append] at hcontents
      omega
    refine (RawSection.opens_code (word_encodeVec Code.encode_ne_nil hlength)).trans ?_
    exact skipSized_flatMap hcodes
  | data ds => exact hlist Data.encode_ne_nil hlength

/-! ## Custom sections -/

/-- The custom sections of a module, in order. -/
def Module.customs (m : Module) : List (String × Bytes) :=
  m.filterMap fun | .custom name contents => some (name, contents) | _ => none

theorem gatherCustoms_raw {m : Module} (inner : RawSection → List (String × Bytes) × Bool)
    (hm : ∀ s ∈ m, s.contents.length < UInt32.size ∧ s.opensWell) :
    gatherCustoms .module inner (m.map Section.raw) = (m.customs, true) := by
  induction m with
  | nil => rfl
  | cons s m ih =>
    obtain ⟨hlength, hs⟩ := hm s List.mem_cons_self
    have hopens := s.opens_raw hlength hs
    have hrest := ih fun s hs ↦ hm s (List.mem_cons_of_mem _ hs)
    have hnests : BinaryKind.module.nests s.raw.id = false := rfl
    have hfound : (if s.raw.id = 0 then (Take.name s.raw.contents).toList else []) =
        Module.customs [s] := by
      cases s with
      | custom name contents => exact congrArg Option.toList (name_encodeName hs contents)
      | _ => rfl
    have hcustoms : Module.customs (s :: m) = Module.customs [s] ++ Module.customs m :=
      List.filterMap_append (l := [s])
    rw [hcustoms, ← hfound, List.map_cons, gatherCustoms, hnests]
    simp only [Bool.false_eq_true, if_false, hopens, hrest]
    split <;> rfl

theorem customSections_encode {m : Module}
    (hm : ∀ s ∈ m, s.contents.length < UInt32.size ∧ s.opensWell) :
    customSections m.encode = m.customs := by
  rw [customSections, customsWithin, cutBinary?_encode fun s hs ↦ (hm s hs).1]
  simp only [gatherCustoms_raw _ hm]

end ScriptWasm.Wasm
