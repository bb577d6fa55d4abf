import ScriptWasm.Proofs.Json.Numbers
import ScriptWasm.Proofs.Json.Strings

/-!
# The text of a value

What a reader meets, byte by byte: the first byte of a value, which tells its kind, and the items
of an array or the members of an object, each but the first behind a comma.

A value can be read back if its numbers can and if it does not nest too deep; `Value.IsReadable` and
`Value.depth` are these two conditions.
-/

namespace ScriptWasm.Json

/-! ## Values that can be read back -/

/-- All numbers of the value are read as what they are. -/
inductive Value.IsReadable : Value → Prop
  | null : IsReadable .null
  | boolean (b : Bool) : IsReadable (.boolean b)
  | number {n : Number} (h : n.IsReadable) : IsReadable (.number n)
  | string (s : String) : IsReadable (.string s)
  | array {items : List Value} (h : ∀ v ∈ items, v.IsReadable) : IsReadable (.array items)
  | object {members : List (String × Value)} (h : ∀ m ∈ members, m.2.IsReadable) :
    IsReadable (.object members)

theorem Value.isReadable_natural {n : Nat} (hn : n ≤ largestSignificand) :
    (Value.natural n).IsReadable :=
  .number (Number.isReadable_integer hn)

theorem Value.IsReadable.array_map {ι : Type} {is : List ι} {f : ι → Value}
    (h : ∀ i ∈ is, (f i).IsReadable) : (Value.array (is.map f)).IsReadable := by
  refine .array fun v hv ↦ ?_
  obtain ⟨i, hi, rfl⟩ := List.mem_map.mp hv
  exact h i hi

theorem Value.IsReadable.object_single {name : String} {v : Value} (h : v.IsReadable) :
    (Value.object [(name, v)]).IsReadable :=
  .object fun _ hm ↦ List.mem_singleton.mp hm ▸ h

theorem Value.IsReadable.object_append {front back : List (String × Value)}
    (hfront : ∀ m ∈ front, m.2.IsReadable) (hback : ∀ m ∈ back, m.2.IsReadable) :
    (Value.object (front ++ back)).IsReadable := by
  refine .object fun m hm ↦ ?_
  rcases List.mem_append.mp hm with hm | hm
  · exact hfront m hm
  · exact hback m hm

mutual

/-- How many brackets are open in the middle of the value. -/
def Value.depth : Value → Nat
  | .null => 0
  | .boolean _ => 0
  | .number _ => 0
  | .string _ => 0
  | .array items => itemsDepth items + 1
  | .object members => membersDepth members + 1

def itemsDepth : List Value → Nat
  | [] => 0
  | v :: rest => max v.depth (itemsDepth rest)

def membersDepth : List (String × Value) → Nat
  | [] => 0
  | (_, v) :: rest => max v.depth (membersDepth rest)

end

theorem depth_le_of_mem_items {v : Value} {items : List Value} (h : v ∈ items) :
    v.depth ≤ itemsDepth items := by
  induction items with
  | nil => cases h
  | cons w items ih =>
    rw [itemsDepth]
    rcases List.mem_cons.mp h with rfl | h
    · exact Nat.le_max_left _ _
    · exact Nat.le_trans (ih h) (Nat.le_max_right _ _)

theorem depth_le_of_mem_members {m : String × Value} {members : List (String × Value)}
    (h : m ∈ members) : m.2.depth ≤ membersDepth members := by
  induction members with
  | nil => cases h
  | cons w members ih =>
    rw [membersDepth]
    rcases List.mem_cons.mp h with rfl | h
    · exact Nat.le_max_left _ _
    · exact Nat.le_trans (ih h) (Nat.le_max_right _ _)

theorem itemsDepth_le {items : List Value} {n : Nat} (h : ∀ v ∈ items, v.depth ≤ n) :
    itemsDepth items ≤ n := by
  induction items with
  | nil => exact Nat.zero_le n
  | cons v items ih =>
    exact Nat.max_le.mpr
      ⟨h v List.mem_cons_self, ih fun w hw ↦ h w (List.mem_cons_of_mem v hw)⟩

theorem itemsDepth_map_le {ι : Type} {is : List ι} {f : ι → Value} {n : Nat}
    (h : ∀ i ∈ is, (f i).depth ≤ n) : itemsDepth (is.map f) ≤ n := by
  refine itemsDepth_le fun v hv ↦ ?_
  obtain ⟨i, hi, rfl⟩ := List.mem_map.mp hv
  exact h i hi

theorem membersDepth_append (front back : List (String × Value)) :
    membersDepth (front ++ back) = max (membersDepth front) (membersDepth back) := by
  induction front with
  | nil => rw [List.nil_append, membersDepth, Nat.zero_max]
  | cons m front ih =>
    rw [List.cons_append, membersDepth, membersDepth, ih, Nat.max_assoc]

/-! ## Bytes -/

/-- The bytes of a value. -/
def Value.bytes (v : Value) : Bytes := bytesOf v.write

/-- The bytes of a member of an object. -/
def memberBytes (m : String × Value) : Bytes := bytesOf (writeString m.1) ++ 58 :: m.2.bytes

/-- The bytes of items that follow another one. -/
def laterItems (items : List Value) : Bytes := items.flatMap fun v ↦ 44 :: v.bytes

/-- The bytes of members that follow another one. -/
def laterMembers (members : List (String × Value)) : Bytes :=
  members.flatMap fun m ↦ 44 :: memberBytes m

/-- The bytes between the brackets of an array. -/
def itemsBytes : List Value → Bytes
  | [] => []
  | v :: items => v.bytes ++ laterItems items

/-- The bytes between the brackets of an object. -/
def membersBytes : List (String × Value) → Bytes
  | [] => []
  | m :: members => memberBytes m ++ laterMembers members

theorem laterItems_cons (v : Value) (items : List Value) :
    laterItems (v :: items) = 44 :: (v.bytes ++ laterItems items) := rfl

theorem laterMembers_cons (m : String × Value) (members : List (String × Value)) :
    laterMembers (m :: members) = 44 :: (memberBytes m ++ laterMembers members) := rfl

/-! The marks between values are a byte each. -/

theorem bytesOf_empty : bytesOf "" = [] := bytesOf_ofList []

theorem bytesOf_comma : bytesOf "," = [44] := bytesOf_ofList [',']

theorem bytesOf_colon : bytesOf ":" = [58] := bytesOf_ofList [':']

theorem bytesOf_brackets : bytesOf "[" = [91] ∧ bytesOf "]" = [93] :=
  ⟨bytesOf_ofList ['['], bytesOf_ofList [']']⟩

theorem bytesOf_braces : bytesOf "\x7b" = [123] ∧ bytesOf "\x7d" = [125] :=
  ⟨bytesOf_ofList ['\x7b'], bytesOf_ofList ['\x7d']⟩

theorem bytesOf_writeItems (v : Value) (items : List Value) :
    bytesOf (writeItems (v :: items)) = itemsBytes (v :: items) := by
  induction items generalizing v with
  | nil =>
    rw [writeItems, itemsBytes, laterItems, List.flatMap_nil, List.append_nil]
    rfl
  | cons w items ih =>
    rw [writeItems, bytesOf_append, bytesOf_append, ih, bytesOf_comma, List.append_assoc]
    rfl

theorem bytesOf_writeMembers (m : String × Value) (members : List (String × Value)) :
    bytesOf (writeMembers (m :: members)) = membersBytes (m :: members) := by
  have hmember (m : String × Value) :
      bytesOf (writeString m.1 ++ ":" ++ m.2.write) = memberBytes m := by
    rw [bytesOf_append, bytesOf_append, bytesOf_colon, List.append_assoc]
    rfl
  induction members generalizing m with
  | nil =>
    rw [writeMembers, hmember, membersBytes, laterMembers, List.flatMap_nil, List.append_nil]
  | cons w members ih =>
    rw [writeMembers, bytesOf_append, bytesOf_append, hmember, ih, bytesOf_comma,
      List.append_assoc]
    rfl

theorem bytes_null : Value.bytes .null = 110 :: wordNull := by
  rw [Value.bytes, Value.write]
  exact bytesOf_ofList_cons 'n' ['u', 'l', 'l']

theorem bytes_true : Value.bytes (.boolean true) = 116 :: wordTrue := by
  rw [Value.bytes, Value.write]
  exact bytesOf_ofList_cons 't' ['r', 'u', 'e']

theorem bytes_false : Value.bytes (.boolean false) = 102 :: wordFalse := by
  rw [Value.bytes, Value.write]
  exact bytesOf_ofList_cons 'f' ['a', 'l', 's', 'e']

theorem bytes_array (items : List Value) :
    Value.bytes (.array items) = 91 :: (itemsBytes items ++ [93]) := by
  rw [Value.bytes, Value.write, bytesOf_append, bytesOf_append, bytesOf_brackets.1,
    bytesOf_brackets.2, List.append_assoc]
  cases items with
  | nil =>
    rw [writeItems, bytesOf_empty]
    rfl
  | cons v items =>
    rw [bytesOf_writeItems]
    rfl

theorem bytes_object (members : List (String × Value)) :
    Value.bytes (.object members) = 123 :: (membersBytes members ++ [125]) := by
  rw [Value.bytes, Value.write, bytesOf_append, bytesOf_append, bytesOf_braces.1,
    bytesOf_braces.2, List.append_assoc]
  cases members with
  | nil =>
    rw [writeMembers, bytesOf_empty]
    rfl
  | cons m members =>
    rw [bytesOf_writeMembers]
    rfl

/-! ## Sizes -/

/-- A character is written as six others at most, and each of these takes at most four bytes. -/
def stringWidth (s : String) : Nat := 4 * (6 * s.utf8ByteSize + 2)

mutual

/-- A value takes no more bytes than this. -/
def Value.width : Value → Nat
  | .null => 4
  | .boolean _ => 5
  | .number n => (bytesOf n.write).length
  | .string s => stringWidth s
  | .array items => itemsWidth items + 2
  | .object members => membersWidth members + 2

def itemsWidth : List Value → Nat
  | [] => 0
  | v :: rest => v.width + 1 + itemsWidth rest

def membersWidth : List (String × Value) → Nat
  | [] => 0
  | (name, v) :: rest => stringWidth name + v.width + 2 + membersWidth rest

end

theorem length_escapeChar_le (c : Char) : (escapeChar c).length ≤ 6 := by
  rw [escapeChar]
  repeat' split
  all_goals simp [controlEscape]

theorem length_writeString_le (s : String) : (bytesOf (writeString s)).length ≤ stringWidth s := by
  have hchar (c : Char) : (String.utf8EncodeChar c).length ≤ 4 := by
    rw [String.length_utf8EncodeChar]
    exact c.utf8Size_le_four
  have hlength : s.toList.length ≤ s.utf8ByteSize := by
    have hsome := length_le_flatMap (fun c ↦ @String.utf8EncodeChar_ne_nil c) s.toList
    rw [← bytesOf_eq_flatMap, bytesOf_eq_data] at hsome
    exact hsome
  have hescaped := length_flatMap_le length_escapeChar_le s.toList
  have hbytes := length_flatMap_le hchar ('"' :: s.toList.flatMap escapeChar ++ ['"'])
  rw [writeString, bytesOf_ofList, stringWidth]
  rw [List.length_append, List.length_cons, List.length_singleton] at hbytes
  omega

/-- Items that come first are written without the comma. -/
theorem length_itemsBytes_le (items : List Value) :
    (itemsBytes items).length ≤ (laterItems items).length := by
  cases items with
  | nil => exact Nat.le_refl 0
  | cons v items =>
    rw [itemsBytes, laterItems_cons, List.length_cons]
    exact Nat.le_succ _

theorem length_membersBytes_le (members : List (String × Value)) :
    (membersBytes members).length ≤ (laterMembers members).length := by
  cases members with
  | nil => exact Nat.le_refl 0
  | cons m members =>
    rw [membersBytes, laterMembers_cons, List.length_cons]
    exact Nat.le_succ _

mutual

theorem Value.length_bytes_le (v : Value) : v.bytes.length ≤ v.width := by
  match v with
  | .null =>
    rw [bytes_null]
    decide +kernel
  | .boolean true =>
    rw [bytes_true]
    decide +kernel
  | .boolean false =>
    rw [bytes_false]
    decide +kernel
  | .number n => exact Nat.le_refl _
  | .string s => exact length_writeString_le s
  | .array items =>
    have hitems := Nat.le_trans (length_itemsBytes_le items) (length_laterItems_le items)
    rw [bytes_array, Value.width, List.length_cons, List.length_append, List.length_singleton]
    exact Nat.add_le_add_right hitems 2
  | .object members =>
    have hmembers := Nat.le_trans (length_membersBytes_le members) (length_laterMembers_le members)
    rw [bytes_object, Value.width, List.length_cons, List.length_append, List.length_singleton]
    exact Nat.add_le_add_right hmembers 2

theorem length_laterItems_le (items : List Value) :
    (laterItems items).length ≤ itemsWidth items := by
  match items with
  | [] => exact Nat.le_refl 0
  | v :: rest =>
    have hfirst := Value.length_bytes_le v
    have hrest := length_laterItems_le rest
    rw [laterItems_cons, List.length_cons, List.length_append, itemsWidth]
    omega

theorem length_laterMembers_le (members : List (String × Value)) :
    (laterMembers members).length ≤ membersWidth members := by
  match members with
  | [] => exact Nat.le_refl 0
  | (name, v) :: rest =>
    have hname := length_writeString_le name
    have hfirst := Value.length_bytes_le v
    have hrest := length_laterMembers_le rest
    rw [laterMembers_cons, List.length_cons, List.length_append, memberBytes, List.length_append,
      List.length_cons, membersWidth]
    dsimp only
    omega

end

/-! ## First bytes -/

/-- The first byte of a value is not blank, closes no list, and is that of null only for null. -/
theorem Value.IsReadable.exists_bytes_cons {v : Value} (hv : v.IsReadable) :
    ∃ b bs, v.bytes = b :: bs ∧ isBlank b = false ∧ b ≠ 93 ∧ (b = 110 → v = .null) := by
  cases hv with
  | null => exact ⟨110, wordNull, bytes_null, rfl, by decide, fun _ ↦ rfl⟩
  | boolean b =>
    cases b with
    | true => exact ⟨116, wordTrue, bytes_true, rfl, by decide, fun h ↦ absurd h (by decide)⟩
    | false => exact ⟨102, wordFalse, bytes_false, rfl, by decide, fun h ↦ absurd h (by decide)⟩
  | number hn =>
    obtain ⟨b, bs, hbytes, rfl | hdigit⟩ := hn.exists_cons
    · exact ⟨45, bs, hbytes, rfl, by decide, fun h ↦ absurd h (by decide)⟩
    · exact ⟨b, bs, hbytes, isBlank_of_isDigit hdigit, ne_of_isDigit hdigit rfl,
        fun h ↦ absurd h (ne_of_isDigit hdigit rfl)⟩
  | string s => exact ⟨34, _, bytesOf_writeString s, rfl, by decide, fun h ↦ absurd h (by decide)⟩
  | array => exact ⟨91, _, bytes_array _, rfl, by decide, fun h ↦ absurd h (by decide)⟩
  | object => exact ⟨123, _, bytes_object _, rfl, by decide, fun h ↦ absurd h (by decide)⟩

end ScriptWasm.Json
