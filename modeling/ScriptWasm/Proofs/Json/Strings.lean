import ScriptWasm.Json.Value
import ScriptWasm.Proofs.Text.Utf8

/-!
# Written strings are read back

A string is written character by character and read byte by byte. A character that is written as it
is has no byte that means something inside of quotes; every other one is written as an escape, which
stands for its bytes. So reading takes a written character for its bytes, and a written string for
itself, whatever follows the closing quote.
-/

namespace ScriptWasm.Json

/-- A byte that stands for itself inside of quotes. -/
def IsPlain (b : UInt8) : Prop := b ≠ 34 ∧ b ≠ 92 ∧ ¬b < 32

theorem stringBytes_plain {bs : Bytes} (hbs : ∀ b ∈ bs, IsPlain b) (done rest : Bytes) :
    stringBytes done (bs ++ rest) = stringBytes (bs.reverse ++ done) rest := by
  induction bs generalizing done with
  | nil => rfl
  | cons b bs ih =>
    obtain ⟨hquote, hescape, hcontrol⟩ := hbs b List.mem_cons_self
    have hstep (rest : Bytes) : stringBytes done (b :: rest) = stringBytes (b :: done) rest := by
      rw [stringBytes.eq_def]
      simp only [if_neg hquote, if_neg hescape, if_neg hcontrol]
    rw [List.cons_append, hstep, ih fun b hb ↦ hbs b (List.mem_cons_of_mem _ hb),
      List.reverse_cons, List.append_assoc, List.singleton_append]

theorem stringBytes_quote (done rest : Bytes) :
    stringBytes done (34 :: rest) = .ok (done.reverse, rest) := by
  rw [stringBytes.eq_def]
  simp only [if_true]

theorem stringBytes_shortEscape {e c : UInt8} (he : shortEscape? e = some c) (done rest : Bytes) :
    stringBytes done (92 :: e :: rest) = stringBytes (c :: done) rest := by
  have hquote : (92 : UInt8) ≠ 34 := by decide
  rw [stringBytes.eq_def]
  simp only [if_neg hquote, if_true, he]

/-- The byte of a hexadecimal digit. -/
def hexByte (n : Nat) : UInt8 := UInt8.ofNat (Hex.digit n).toNat

theorem hexQuad?_hexByte : ∀ n < 32,
    hexQuad? 48 48 (hexByte (n / 16)) (hexByte (n % 16)) = some n := by
  decide

theorem stringBytes_controlEscape {n : Nat} (hn : n < 32) (done rest : Bytes) :
    stringBytes done (92 :: 117 :: 48 :: 48 :: hexByte (n / 16) :: hexByte (n % 16) :: rest) =
      stringBytes ((codePointBytes n).reverse ++ done) rest := by
  have htrailing : isTrailingSurrogate n = false := by
    simp only [isTrailingSurrogate, Bool.and_eq_false_iff, decide_eq_false_iff_not]
    omega
  have hleading : isLeadingSurrogate n = false := by
    simp only [isLeadingSurrogate, Bool.and_eq_false_iff, decide_eq_false_iff_not]
    omega
  have hquote : (92 : UInt8) ≠ 34 := by decide
  have hshort : shortEscape? 117 = none := by decide
  rw [stringBytes.eq_def]
  simp only [if_neg hquote, if_true, hshort, ne_eq, not_true_eq_false, if_false,
    hexQuad?_hexByte n hn, htrailing, hleading, Bool.false_eq_true]

/-! ## Characters -/

/-- The bytes of a character inside of quotes. -/
def escapedBytes (c : Char) : Bytes := (escapeChar c).flatMap String.utf8EncodeChar

theorem isPlain_of_mem_utf8EncodeChar {c : Char} (hquote : c ≠ '"') (hescape : c ≠ '\\')
    (hcontrol : ¬c.toNat < 32) {b : UInt8} (hb : b ∈ String.utf8EncodeChar c) : IsPlain b := by
  by_cases hascii : c.toNat ≤ 127
  · -- The only byte is the number of the character, which is neither of the two.
    rw [utf8EncodeChar_of_ascii hascii, List.mem_singleton] at hb
    have hb' : b.toNat = c.toNat := by
      rw [hb, UInt8.toNat_ofNat']
      omega
    have hne (d : Char) (hcd : c ≠ d) : c.toNat ≠ d.toNat := fun h ↦ hcd (Char.toNat_inj.mp h)
    have hquote' : c.toNat ≠ 34 := hne '"' hquote
    have hescape' : c.toNat ≠ 92 := hne '\\' hescape
    refine ⟨?_, ?_, ?_⟩
    · rintro rfl
      exact hquote' hb'.symm
    · rintro rfl
      exact hescape' hb'.symm
    · rw [UInt8.lt_iff_toNat_lt, hb']
      exact hcontrol
  · have hle := le_of_mem_utf8EncodeChar (Nat.lt_of_not_le hascii) hb
    refine ⟨?_, ?_, ?_⟩
    · rintro rfl
      exact absurd hle (by decide)
    · rintro rfl
      exact absurd hle (by decide)
    · rw [UInt8.lt_iff_toNat_lt]
      exact Nat.not_lt.mpr (Nat.le_trans (by decide) hle)

/-- Reading takes an escape of one letter for the character that is written so. -/
theorem stringBytes_letter {c e : Char} {b d : UInt8} (hc : escapeChar c = ['\\', e])
    (he : String.utf8EncodeChar e = [b]) (hb : shortEscape? b = some d)
    (hd : String.utf8EncodeChar c = [d]) (done rest : Bytes) :
    stringBytes done (escapedBytes c ++ rest) =
      stringBytes ((String.utf8EncodeChar c).reverse ++ done) rest := by
  have hbackslash : String.utf8EncodeChar '\\' = [92] := by decide
  have hbytes : escapedBytes c = [92, b] := by
    rw [escapedBytes, hc, List.flatMap_cons, List.flatMap_singleton, hbackslash, he]
    rfl
  rw [hbytes, hd]
  exact stringBytes_shortEscape hb done rest

/-- The bytes of a character that is written by its code. -/
theorem flatMap_controlEscape : ∀ n < 32,
    (controlEscape (Char.ofNat n)).flatMap String.utf8EncodeChar =
      [92, 117, 48, 48, hexByte (n / 16), hexByte (n % 16)] := by
  decide

/-- Reading takes a written character for its bytes. -/
theorem stringBytes_escapedBytes (c : Char) (done rest : Bytes) :
    stringBytes done (escapedBytes c ++ rest) =
      stringBytes ((String.utf8EncodeChar c).reverse ++ done) rest := by
  have hcode {n : Nat} (h : c.toNat = n) : c = Char.ofNat n := by rw [← h, Char.ofNat_toNat]
  by_cases hquote : c = '"'
  · subst hquote
    exact stringBytes_letter (e := '"') (b := 34) (d := 34) rfl rfl rfl rfl done rest
  by_cases hescape : c = '\\'
  · subst hescape
    exact stringBytes_letter (e := '\\') (b := 92) (d := 92) rfl rfl rfl rfl done rest
  by_cases hshort : c.toNat ∈ [8, 9, 10, 12, 13]
  · -- Five control characters have a letter of their own.
    simp only [List.mem_cons, List.not_mem_nil, or_false] at hshort
    rcases hshort with h | h | h | h | h
    · obtain rfl := hcode h
      exact stringBytes_letter (e := 'b') (b := 98) (d := 8) rfl rfl rfl rfl done rest
    · obtain rfl := hcode h
      exact stringBytes_letter (e := 't') (b := 116) (d := 9) rfl rfl rfl rfl done rest
    · obtain rfl := hcode h
      exact stringBytes_letter (e := 'n') (b := 110) (d := 10) rfl rfl rfl rfl done rest
    · obtain rfl := hcode h
      exact stringBytes_letter (e := 'f') (b := 102) (d := 12) rfl rfl rfl rfl done rest
    · obtain rfl := hcode h
      exact stringBytes_letter (e := 'r') (b := 114) (d := 13) rfl rfl rfl rfl done rest
  simp only [List.mem_cons, List.not_mem_nil, or_false, not_or] at hshort
  obtain ⟨h8, h9, h10, h12, h13⟩ := hshort
  have hother : escapeChar c = if c.toNat < 32 then controlEscape c else [c] := by
    rw [escapeChar, if_neg (by simp [hquote, hescape]), if_neg h8, if_neg h9, if_neg h10,
      if_neg h12, if_neg h13]
  rw [escapedBytes, hother]
  by_cases hcontrol : c.toNat < 32
  · have hbytes := flatMap_controlEscape c.toNat hcontrol
    rw [Char.ofNat_toNat] at hbytes
    rw [if_pos hcontrol, hbytes]
    have hread := stringBytes_controlEscape hcontrol done rest
    rwa [codePointBytes, Char.ofNat_toNat] at hread
  · rw [if_neg hcontrol, List.flatMap_singleton]
    exact stringBytes_plain (fun _ ↦ isPlain_of_mem_utf8EncodeChar hquote hescape hcontrol) done
      rest

/-- Reading takes written characters up to the quote behind them for their bytes. -/
theorem stringBytes_escaped (cs : List Char) (done rest : Bytes) :
    stringBytes done (cs.flatMap escapedBytes ++ 34 :: rest) =
      .ok (done.reverse ++ cs.flatMap String.utf8EncodeChar, rest) := by
  induction cs generalizing done with
  | nil => rw [List.flatMap_nil, List.nil_append, stringBytes_quote, List.flatMap_nil,
      List.append_nil]
  | cons c cs ih =>
    rw [List.flatMap_cons, List.append_assoc, stringBytes_escapedBytes, ih, List.reverse_append,
      List.reverse_reverse, List.flatMap_cons, List.append_assoc]

/-! ## Strings -/

/-- A written string is its characters between two quotes. -/
theorem bytesOf_writeString (s : String) :
    bytesOf (writeString s) = 34 :: s.toList.flatMap escapedBytes ++ [34] := by
  have hquote : String.utf8EncodeChar '"' = [34] := by decide
  rw [writeString, bytesOf_ofList, List.flatMap_append, List.flatMap_cons, List.flatMap_assoc,
    List.flatMap_singleton, hquote]
  rfl

/-- What was written between the quotes is the string. -/
theorem string_escaped (s : String) (rest : Bytes) :
    string (s.toList.flatMap escapedBytes ++ 34 :: rest) = .ok (s, rest) := by
  rw [string, stringBytes_escaped, List.reverse_nil, List.nil_append, ← bytesOf_eq_flatMap]
  simp only [bind, Except.bind, textOf?_bytesOf]

end ScriptWasm.Json
