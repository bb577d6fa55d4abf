import ScriptWasm.Proofs.Lists
import ScriptWasm.Text.Bytes

/-!
# Texts and their bytes

The bytes of a text are those of its characters, one after the other, and they are a text again:
the same one. Characters outside of ASCII have no byte below 128, so whoever looks for a quote or a
bracket among the bytes of a text never finds one in the middle of a character.
-/

namespace ScriptWasm

theorem toList_loop (bytes : ByteArray) (i : Nat) (seen : List UInt8) :
    ByteArray.toList.loop bytes i seen = seen.reverse ++ bytes.data.toList.drop i := by
  fun_induction ByteArray.toList.loop bytes i seen with
  | case1 i seen h ih =>
    have hi : i < bytes.data.toList.length := h
    have hget : bytes.get! i = bytes.data.toList[i] := getElem!_pos bytes.data i h
    rw [ih, List.reverse_cons, List.append_assoc, List.singleton_append, hget,
      List.drop_eq_getElem_cons hi]
  | case2 i seen h =>
    have hi : bytes.data.toList.length ≤ i := Nat.le_of_not_lt h
    rw [List.drop_eq_nil_of_le hi, List.append_nil]

theorem bytesOf_eq_data (s : String) : bytesOf s = s.toByteArray.data.toList := by
  rw [bytesOf, ByteArray.toList, toList_loop]
  rfl

@[simp] theorem textOf?_bytesOf (s : String) : textOf? (bytesOf s) = some s := by
  rw [textOf?, bytesOf_eq_data, Array.toArray_toList, String.fromUTF8?, dif_pos s.isValidUTF8]
  rfl

theorem bytesOf_append (s t : String) : bytesOf (s ++ t) = bytesOf s ++ bytesOf t := by
  rw [bytesOf_eq_data, bytesOf_eq_data, bytesOf_eq_data, String.toByteArray_append]
  exact ByteArray.toList_data_append

theorem bytesOf_ofList (cs : List Char) :
    bytesOf (String.ofList cs) = cs.flatMap String.utf8EncodeChar := by
  rw [bytesOf_eq_data, String.toByteArray_ofList, List.utf8Encode]
  exact List.toList_data_toByteArray

theorem bytesOf_ofList_cons (c : Char) (cs : List Char) :
    bytesOf (String.ofList (c :: cs)) = String.utf8EncodeChar c ++ bytesOf (String.ofList cs) := by
  rw [bytesOf_ofList, bytesOf_ofList, List.flatMap_cons]

theorem bytesOf_eq_flatMap (s : String) :
    bytesOf s = s.toList.flatMap String.utf8EncodeChar := by
  rw [← bytesOf_ofList, String.ofList_toList]

/-! ## Characters -/

/-- A character of ASCII is one byte. -/
theorem utf8EncodeChar_of_ascii {c : Char} (h : c.toNat ≤ 127) :
    String.utf8EncodeChar c = [UInt8.ofNat c.toNat] := by
  have hval : c.val.toNat ≤ 127 := h
  rw [String.utf8EncodeChar]
  simp only [if_pos hval]
  rfl

/-- Every other character consists of bytes that are no characters themselves. -/
theorem le_of_mem_utf8EncodeChar {c : Char} (h : 127 < c.toNat) {b : UInt8}
    (hb : b ∈ String.utf8EncodeChar c) : 128 ≤ b.toNat := by
  have hval : ¬c.val.toNat ≤ 127 := Nat.not_le.mpr h
  -- a byte of a longer form is 128 or more by construction, and none of them is cut off
  rw [String.utf8EncodeChar] at hb
  simp only [if_neg hval] at hb
  split at hb
  · simp only [List.mem_cons, List.not_mem_nil, or_false] at hb
    rcases hb with rfl | rfl <;> rw [UInt8.toNat_ofNat'] <;> omega
  · split at hb
    · simp only [List.mem_cons, List.not_mem_nil, or_false] at hb
      rcases hb with rfl | rfl | rfl <;> rw [UInt8.toNat_ofNat'] <;> omega
    · simp only [List.mem_cons, List.not_mem_nil, or_false] at hb
      rcases hb with rfl | rfl | rfl | rfl <;> rw [UInt8.toNat_ofNat'] <;> omega

end ScriptWasm
