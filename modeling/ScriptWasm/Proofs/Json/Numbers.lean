import ScriptWasm.Json.Value
import ScriptWasm.Proofs.Sequencing
import ScriptWasm.Proofs.Text.Utf8

/-!
# Written numbers are read back

Nothing marks the end of a number, so what it is read as depends on what follows. But only a digit,
a point or an exponent can go on with a number, and none of them follows one in a written text. So
it is enough to know what a number is read as on its own.

The text of an integer is read as that integer. The text of a double is read as some double, never
as an integer, but not always as the same one: reading rounds twice. Which doubles are read back is
a matter of each of them, and left as a condition.
-/

namespace ScriptWasm.Json

/-! ## What follows a number -/

/-- A byte that can go on with a number. -/
def continues (b : UInt8) : Bool := isDigit b || b == 46 || b == 101 || b == 69

/-- No number goes on with the given bytes. -/
def EndsNumber (rest : Bytes) : Prop := ∀ b ∈ rest.head?, continues b = false

variable {rest : Bytes}

theorem EndsNumber.startsWithDigit (h : EndsNumber rest) : startsWithDigit rest = false := by
  cases rest with
  | nil => rfl
  | cons b rest =>
    have hb := h b rfl
    simp only [continues, Bool.or_eq_false_iff] at hb
    exact hb.1.1.1

theorem EndsNumber.cons {b : UInt8} (h : EndsNumber (b :: rest)) :
    isDigit b = false ∧ b ≠ 46 ∧ ¬(b = 101 ∨ b = 69) := by
  have hb := h b rfl
  simp only [continues, Bool.or_eq_false_iff, beq_eq_false_iff_ne] at hb
  exact ⟨hb.1.1.1, hb.1.1.2, not_or.mpr ⟨hb.1.2, hb.2⟩⟩

theorem startsWithDigit_append (h : EndsNumber rest) (bs : Bytes) :
    startsWithDigit (bs ++ rest) = startsWithDigit bs := by
  cases bs with
  | nil => exact h.startsWithDigit
  | cons b bs => rfl

theorem dropWhile_isDigit_append (h : EndsNumber rest) (bs : Bytes) :
    (bs ++ rest).dropWhile isDigit = bs.dropWhile isDigit ++ rest := by
  induction bs with
  | nil =>
    cases rest with
    | nil => rfl
    | cons b rest => simp [h.cons.1]
  | cons b bs ih =>
    rw [List.cons_append, List.dropWhile_cons, List.dropWhile_cons]
    split
    · exact ih
    · rfl

theorem takeWhile_isDigit_append (h : EndsNumber rest) (bs : Bytes) :
    (bs ++ rest).takeWhile isDigit = bs.takeWhile isDigit := by
  induction bs with
  | nil =>
    cases rest with
    | nil => rfl
    | cons b rest => simp [h.cons.1]
  | cons b bs ih =>
    rw [List.cons_append, List.takeWhile_cons, List.takeWhile_cons, ih]

theorem appendDigits_append (h : EndsNumber rest) {bs r : Bytes} {significand count n k : Nat}
    (hbs : appendDigits significand count bs = (n, k, r)) :
    appendDigits significand count (bs ++ rest) = (n, k, r ++ rest) := by
  induction bs generalizing significand count with
  | nil =>
    cases hbs
    cases rest with
    | nil => rfl
    | cons b rest => simp [appendDigits, h.cons.1]
  | cons b bs ih =>
    rw [appendDigits] at hbs
    rw [List.cons_append, appendDigits]
    split at hbs
    · rename_i hfits
      rw [if_pos hfits]
      exact ih hbs
    · rename_i hfits
      cases hbs
      rw [if_neg hfits]
      rfl

/-! ### Doubles -/

theorem scaled_append {negative : Bool} {significand : Nat} {exponent : Int} {bs r : Bytes}
    {x : Binary64} (hbs : scaled negative significand exponent bs = .ok (x, r)) :
    scaled negative significand exponent (bs ++ rest) = .ok (x, r ++ rest) := by
  rw [scaled] at hbs ⊢
  split at hbs
  · cases hbs
    rfl
  · cases hbs

theorem exponentDigits_append (h : EndsNumber rest) {negative : Bool} {significand : Nat}
    {start : Int} {shrinks : Bool} {exponent : Nat} {bs r : Bytes} {x : Binary64}
    (hbs : exponentDigits negative significand start shrinks exponent bs = .ok (x, r)) :
    exponentDigits negative significand start shrinks exponent (bs ++ rest) =
      .ok (x, r ++ rest) := by
  induction bs generalizing exponent with
  | nil =>
    cases rest with
    | nil =>
      rw [List.append_nil, List.append_nil]
      exact hbs
    | cons b rest =>
      rw [exponentDigits] at hbs
      rw [List.nil_append, exponentDigits, h.cons.1]
      exact scaled_append hbs
  | cons b bs ih =>
    rw [exponentDigits] at hbs
    rw [List.cons_append, exponentDigits]
    dsimp only at hbs ⊢
    split at hbs
    · rename_i hdigit
      rw [if_pos hdigit]
      split at hbs
      · rename_i hfits
        rw [if_pos hfits]
        exact ih hbs
      · rename_i hfits
        rw [if_neg hfits]
        split at hbs
        · cases hbs
        · rename_i hzero
          cases hbs
          rw [if_neg hzero, dropWhile_isDigit_append h]
    · rename_i hdigit
      rw [if_neg hdigit]
      exact scaled_append hbs

/-- The digits of an exponent, of which one has to be there. -/
def exponentBehindSign (negative : Bool) (significand : Nat) (start : Int) (shrinks : Bool) :
    Bytes → Except Fault (Binary64 × Bytes)
  | [] => .error (.behind .endOfValue [])
  | b :: rest =>
    if isDigit b then exponentDigits negative significand start shrinks (digitValue b) rest
    else .error (.behind .invalidNumber rest)

theorem exponentPart_cons (negative : Bool) (significand : Nat) (start : Int) (b : UInt8)
    (bs : Bytes) :
    exponentPart negative significand start (b :: bs) =
      if b = 43 then exponentBehindSign negative significand start false bs
      else if b = 45 then exponentBehindSign negative significand start true bs
      else exponentBehindSign negative significand start false (b :: bs) := by
  by_cases hplus : b = 43
  · subst hplus
    cases bs <;> rfl
  · by_cases hminus : b = 45
    · subst hminus
      cases bs <;> rfl
    · rw [if_neg hplus, if_neg hminus, exponentPart, exponentBehindSign]
      · exact fun _ heq ↦ hplus (List.cons.inj heq).1
      · exact fun _ heq ↦ hminus (List.cons.inj heq).1

theorem exponentBehindSign_append (h : EndsNumber rest) {negative : Bool} {significand : Nat}
    {start : Int} {shrinks : Bool} {bs r : Bytes} {x : Binary64}
    (hbs : exponentBehindSign negative significand start shrinks bs = .ok (x, r)) :
    exponentBehindSign negative significand start shrinks (bs ++ rest) = .ok (x, r ++ rest) := by
  cases bs with
  | nil => cases hbs
  | cons b bs =>
    rw [exponentBehindSign] at hbs
    rw [List.cons_append, exponentBehindSign]
    split at hbs
    · rename_i hdigit
      rw [if_pos hdigit]
      exact exponentDigits_append h hbs
    · cases hbs

theorem exponentPart_append (h : EndsNumber rest) {negative : Bool} {significand : Nat}
    {start : Int} {bs r : Bytes} {x : Binary64}
    (hbs : exponentPart negative significand start bs = .ok (x, r)) :
    exponentPart negative significand start (bs ++ rest) = .ok (x, r ++ rest) := by
  cases bs with
  | nil => cases hbs
  | cons b bs =>
    rw [exponentPart_cons] at hbs
    rw [List.cons_append, exponentPart_cons]
    split at hbs
    · rename_i hplus
      rw [if_pos hplus]
      exact exponentBehindSign_append h hbs
    · rename_i hplus
      rw [if_neg hplus]
      split at hbs
      · rename_i hminus
        rw [if_pos hminus]
        exact exponentBehindSign_append h hbs
      · rename_i hminus
        rw [if_neg hminus]
        exact exponentBehindSign_append h hbs

theorem afterDigits_append (h : EndsNumber rest) {negative : Bool} {significand : Nat}
    {exponent : Int} {bs r : Bytes} {x : Binary64}
    (hbs : afterDigits negative significand exponent bs = .ok (x, r)) :
    afterDigits negative significand exponent (bs ++ rest) = .ok (x, r ++ rest) := by
  cases bs with
  | nil =>
    rw [afterDigits] at hbs
    cases rest with
    | nil => simpa [afterDigits] using hbs
    | cons b rest =>
      rw [List.nil_append, afterDigits, if_neg h.cons.2.2]
      exact scaled_append hbs
  | cons b bs =>
    rw [afterDigits] at hbs
    rw [List.cons_append, afterDigits]
    split at hbs
    · rename_i he
      rw [if_pos he]
      exact exponentPart_append h hbs
    · rename_i he
      rw [if_neg he]
      exact scaled_append hbs

theorem fractionPart_append (h : EndsNumber rest) {negative : Bool} {significand : Nat}
    {exponent : Int} {bs r : Bytes} {x : Binary64}
    (hbs : fractionPart negative significand exponent bs = .ok (x, r)) :
    fractionPart negative significand exponent (bs ++ rest) = .ok (x, r ++ rest) := by
  rw [fractionPart] at hbs ⊢
  rcases hd : appendDigits significand 0 bs with ⟨n, k, left⟩
  rw [hd] at hbs
  rw [appendDigits_append h hd]
  simp only [startsWithDigit_append h] at hbs ⊢
  split at hbs
  · rename_i hdigit
    rw [if_pos hdigit, dropWhile_isDigit_append h]
    exact afterDigits_append h hbs
  · rename_i hdigit
    rw [if_neg hdigit]
    split at hbs
    · cases hbs
    · rename_i hcount
      rw [if_neg hcount]
      exact afterDigits_append h hbs

/-! ### Numbers -/

theorem afterInteger_append (h : EndsNumber rest) {negative : Bool} {significand : Nat}
    {bs r : Bytes} {n : Number} (hbs : afterInteger negative significand bs = .ok (n, r)) :
    afterInteger negative significand (bs ++ rest) = .ok (n, r ++ rest) := by
  cases bs with
  | nil =>
    rw [afterInteger] at hbs
    cases hbs
    cases rest with
    | nil => rfl
    | cons b rest =>
      rw [List.nil_append, afterInteger, if_neg h.cons.2.1, if_neg h.cons.2.2]
  | cons b bs =>
    rw [afterInteger] at hbs
    rw [List.cons_append, afterInteger]
    split at hbs
    · rename_i hpoint
      obtain ⟨⟨x, left⟩, hx, heq⟩ := bind_eq_ok_iff.mp hbs
      cases heq
      rw [if_pos hpoint, fractionPart_append h hx]
      rfl
    · rename_i hpoint
      rw [if_neg hpoint]
      split at hbs
      · rename_i he
        obtain ⟨⟨x, left⟩, hx, heq⟩ := bind_eq_ok_iff.mp hbs
        cases heq
        rw [if_pos he, exponentPart_append h hx]
        rfl
      · rename_i he
        cases hbs
        rw [if_neg he]
        rfl

theorem longInteger_append (h : EndsNumber rest) {negative : Bool} {significand : Nat}
    {bs r : Bytes} {x : Binary64} (hbs : longInteger negative significand bs = .ok (x, r)) :
    longInteger negative significand (bs ++ rest) = .ok (x, r ++ rest) := by
  rw [longInteger] at hbs ⊢
  rw [takeWhile_isDigit_append h, dropWhile_isDigit_append h]
  generalize bs.dropWhile isDigit = left at hbs ⊢
  generalize (bs.takeWhile isDigit).length = dropped at hbs ⊢
  split at hbs
  · exact fractionPart_append h hbs
  · rename_i hpoint
    -- what is left starts with a point neither before nor after the rest is appended
    have hpoint' (tail : Bytes) : left ++ rest ≠ 46 :: tail := by
      cases left with
      | nil =>
        rintro rfl
        exact h.cons.2.1 rfl
      | cons b left =>
        intro heq
        exact hpoint left (by rw [(List.cons.inj heq).1])
    split
    · rename_i heq
      exact absurd heq (hpoint' _)
    · exact afterDigits_append h hbs

theorem number_append (h : EndsNumber rest) {negative : Bool} {bs r : Bytes} {n : Number}
    (hbs : number negative bs = .ok (n, r)) :
    number negative (bs ++ rest) = .ok (n, r ++ rest) := by
  cases bs with
  | nil => cases hbs
  | cons b bs =>
    rw [number] at hbs
    rw [List.cons_append, number]
    split at hbs
    · rename_i hzero
      rw [if_pos hzero, startsWithDigit_append h]
      split at hbs
      · cases hbs
      · rename_i hdigit
        rw [if_neg hdigit]
        exact afterInteger_append h hbs
    · rename_i hzero
      rw [if_neg hzero]
      split at hbs
      · rename_i hdigit
        rw [if_pos hdigit]
        rcases hd : appendDigits (digitValue b) 1 bs with ⟨n', k, left⟩
        rw [hd] at hbs
        rw [appendDigits_append h hd]
        simp only [startsWithDigit_append h] at hbs ⊢
        split at hbs
        · rename_i hmore
          obtain ⟨⟨x, left'⟩, hx, heq⟩ := bind_eq_ok_iff.mp hbs
          cases heq
          rw [if_pos hmore, longInteger_append h hx]
          rfl
        · rename_i hmore
          rw [if_neg hmore]
          exact afterInteger_append h hbs
      · cases hbs

/-! ## Numbers with their signs -/

/-- A number from its first byte on. -/
def signedNumber : Bytes → Except Fault (Number × Bytes)
  | [] => .error (.ahead .endOfValue [])
  | b :: rest => if b = 45 then number true rest else number false (b :: rest)

theorem signedNumber_append (h : EndsNumber rest) {bs r : Bytes} {n : Number}
    (hbs : signedNumber bs = .ok (n, r)) : signedNumber (bs ++ rest) = .ok (n, r ++ rest) := by
  cases bs with
  | nil => cases hbs
  | cons b bs =>
    rw [signedNumber] at hbs
    rw [List.cons_append, signedNumber]
    split at hbs
    · rename_i hminus
      rw [if_pos hminus]
      exact number_append h hbs
    · rename_i hminus
      rw [if_neg hminus]
      exact number_append h hbs

/-- A number whose text is read as that number. -/
def Number.IsReadable (n : Number) : Prop := signedNumber (bytesOf n.write) = .ok (n, [])

theorem Number.IsReadable.append {n : Number} (hn : n.IsReadable) (h : EndsNumber rest) :
    signedNumber (bytesOf n.write ++ rest) = .ok (n, rest) :=
  signedNumber_append h hn

/-- A number starts with a minus sign or a digit. -/
theorem Number.IsReadable.exists_cons {n : Number} (hn : n.IsReadable) :
    ∃ b bs, bytesOf n.write = b :: bs ∧ (b = 45 ∨ isDigit b = true) := by
  rw [IsReadable] at hn
  rcases hbytes : bytesOf n.write with _ | ⟨b, bs⟩
  · rw [hbytes] at hn
    cases hn
  · refine ⟨b, bs, rfl, ?_⟩
    rw [hbytes, signedNumber] at hn
    by_cases hminus : b = 45
    · exact .inl hminus
    · rw [if_neg hminus, number] at hn
      by_cases hzero : b = 48
      · subst hzero
        exact .inr rfl
      · rw [if_neg hzero] at hn
        split at hn
        · exact .inr ‹_›
        · cases hn

/-! ## Integers -/

/-- The bytes of some digits. -/
def digitBytes (ds : List Char) : Bytes := ds.map fun c ↦ UInt8.ofNat c.toNat

theorem toNat_of_isDigit {c : Char} (hc : c.isDigit = true) : 48 ≤ c.toNat ∧ c.toNat ≤ 57 :=
  Char.isDigit_iff_toNat.mp hc

theorem flatMap_utf8EncodeChar {ds : List Char} (hds : ∀ c ∈ ds, c.isDigit = true) :
    ds.flatMap String.utf8EncodeChar = digitBytes ds := by
  induction ds with
  | nil => rfl
  | cons c ds ih =>
    have hc := toNat_of_isDigit (hds c List.mem_cons_self)
    rw [List.flatMap_cons, utf8EncodeChar_of_ascii (by omega),
      ih fun d hd ↦ hds d (List.mem_cons_of_mem c hd)]
    rfl

theorem toNat_ofNat_of_isDigit {c : Char} (hc : c.isDigit = true) :
    (UInt8.ofNat c.toNat).toNat = c.toNat :=
  UInt8.toNat_ofNat_of_lt' (Nat.lt_of_le_of_lt (toNat_of_isDigit hc).2 (by decide))

theorem isDigit_ofNat {c : Char} (hc : c.isDigit = true) :
    isDigit (UInt8.ofNat c.toNat) = true := by
  simp only [isDigit, Bool.and_eq_true, decide_eq_true_eq, UInt8.le_iff_toNat_le,
    toNat_ofNat_of_isDigit hc]
  exact toNat_of_isDigit hc

theorem digitValue_ofNat {c : Char} (hc : c.isDigit = true) :
    digitValue (UInt8.ofNat c.toNat) = c.toNat - '0'.toNat := by
  rw [digitValue, toNat_ofNat_of_isDigit hc]
  rfl

theorem le_ofDigitChars (ds : List Char) (n : Nat) : n ≤ Nat.ofDigitChars 10 ds n := by
  induction ds generalizing n with
  | nil => exact Nat.le_refl n
  | cons c ds ih =>
    rw [Nat.ofDigitChars_cons]
    have := ih (10 * n + (c.toNat - '0'.toNat))
    omega

/-- Digits whose number is in bounds are all appended. -/
theorem appendDigits_digitBytes {ds : List Char} (hds : ∀ c ∈ ds, c.isDigit = true) (n k : Nat)
    (hfits : Nat.ofDigitChars 10 ds n ≤ largestSignificand) :
    appendDigits n k (digitBytes ds) = (Nat.ofDigitChars 10 ds n, k + ds.length, []) := by
  induction ds generalizing n k with
  | nil => rfl
  | cons c ds ih =>
    have hc := hds c List.mem_cons_self
    rw [Nat.ofDigitChars_cons, Nat.mul_comm] at hfits ⊢
    have hnext : n * 10 + (c.toNat - '0'.toNat) ≤ largestSignificand :=
      Nat.le_trans (le_ofDigitChars ds _) hfits
    rw [digitBytes, List.map_cons, appendDigits, isDigit_ofNat hc, digitValue_ofNat hc,
      Bool.true_and, if_pos (decide_eq_true hnext)]
    rw [← digitBytes, ih (fun d hd ↦ hds d (List.mem_cons_of_mem c hd)) _ _ hfits,
      List.length_cons, Nat.add_assoc, Nat.add_comm 1]

/-- No number but zero starts with the digit zero. -/
theorem head?_toDigits_ne_zero {n : Nat} (hn : 0 < n) :
    (Nat.toDigits 10 n).head? ≠ some '0' := by
  induction n using Nat.strongRecOn with
  | ind n ih =>
    by_cases hsmall : n < 10
    · rw [Nat.toDigits_of_lt_base hsmall]
      have hdigit : ∀ m < 10, 0 < m → [Nat.digitChar m].head? ≠ some '0' := by decide
      exact hdigit n hsmall hn
    · -- the first digit of a longer number is that of its tenth
      have hge : 10 ≤ n := Nat.le_of_not_lt hsmall
      have hfront := ih (n / 10) (by omega) (by omega)
      rw [Nat.toDigits_of_base_le (by decide) hge]
      rcases hds : Nat.toDigits 10 (n / 10) with _ | ⟨c, ds⟩
      · exact absurd hds Nat.toDigits_ne_nil
      · rw [hds] at hfront
        exact hfront

theorem bytesOf_toString (n : Nat) :
    bytesOf (toString n) = digitBytes (Nat.toDigits 10 n) := by
  rw [Nat.toString_eq_ofList_toDigits, bytesOf_ofList]
  exact flatMap_utf8EncodeChar fun c hc ↦
    Nat.isDigit_of_mem_toDigits (by decide) (by decide) hc

theorem Number.isReadable_integer {n : Nat} (hn : n ≤ largestSignificand) :
    (Number.integer n).IsReadable := by
  have hbytes : bytesOf (Number.integer n).write = digitBytes (Nat.toDigits 10 n) :=
    bytesOf_toString n
  rw [IsReadable, hbytes]
  by_cases hzero : n = 0
  · subst hzero
    rfl
  · have hdigits (c : Char) (hc : c ∈ Nat.toDigits 10 n) : c.isDigit = true :=
      Nat.isDigit_of_mem_toDigits (by decide) (by decide) hc
    have hvalue : Nat.ofDigitChars 10 (Nat.toDigits 10 n) 0 = n := Nat.ofDigitChars_ten_toDigits
    have hhead := head?_toDigits_ne_zero (Nat.pos_of_ne_zero hzero)
    rcases hds : Nat.toDigits 10 n with _ | ⟨c, ds⟩
    · exact absurd hds Nat.toDigits_ne_nil
    · rw [hds] at hdigits hvalue hhead
      -- the first digit is neither a sign nor a zero, and the others are appended to it
      have hc := hdigits c List.mem_cons_self
      have hrange := toNat_of_isDigit hc
      have hbyte := toNat_ofNat_of_isDigit hc
      have hminus : UInt8.ofNat c.toNat ≠ 45 := by
        intro heq
        rw [heq] at hbyte
        have : c.toNat = 45 := hbyte.symm
        omega
      have hnonzero : UInt8.ofNat c.toNat ≠ 48 := by
        intro heq
        rw [heq] at hbyte
        exact hhead (congrArg some (Char.toNat_inj.mp hbyte.symm))
      rw [Nat.ofDigitChars_cons, Nat.mul_zero, Nat.zero_add] at hvalue
      rw [digitBytes, List.map_cons, ← digitBytes, signedNumber, if_neg hminus, number,
        if_neg hnonzero, if_pos (isDigit_ofNat hc), digitValue_ofNat hc,
        appendDigits_digitBytes (fun d hd ↦ hdigits d (List.mem_cons_of_mem c hd)) _ _
          (hvalue ▸ hn), hvalue]
      rfl

/-! ## Doubles -/

/-- Digits, then a point or an exponent. -/
def IsFloatText (cs : List Char) : Prop :=
  ∃ ds c tail, ds ≠ [] ∧ (∀ d ∈ ds, d.isDigit = true) ∧ (c = '.' ∨ c = 'e') ∧ cs = ds ++ c :: tail

theorem isDigit_of_mem_digitChars {d : Decimal} {c : Char} (hc : c ∈ d.digitChars) :
    c.isDigit = true :=
  Nat.isDigit_of_mem_toDigits (by decide) (by decide) hc

theorem isFloatText_text (d : Decimal) : IsFloatText d.text.toList := by
  have hne : d.digitChars ≠ [] := Nat.toDigits_ne_nil
  have hzeros (k : Nat) (c : Char) (hc : c ∈ List.replicate k '0') : c.isDigit = true :=
    List.eq_of_mem_replicate hc ▸ rfl
  rw [Decimal.text]
  split
  · -- in scientific notation, the point stands behind the first digit if there is a second one
    have hsign : ∃ tail, (if d.leadingExponent < 0 then "e-" else "e+").toList = 'e' :: tail := by
      split
      · exact ⟨_, rfl⟩
      · exact ⟨_, rfl⟩
    obtain ⟨tail, hsign⟩ := hsign
    simp only [String.toList_append, String.toList_ofList, hsign]
    split
    · rename_i first second rest hds
      have hfirst : first.isDigit = true :=
        isDigit_of_mem_digitChars (hds ▸ List.mem_cons_self)
      exact ⟨[first], '.', _, List.cons_ne_nil _ _, fun c hc ↦ List.mem_singleton.mp hc ▸ hfirst,
        .inl rfl, rfl⟩
    · refine ⟨d.digitChars, 'e', tail ++ (toString d.leadingExponent.natAbs).toList, hne,
        fun c ↦ isDigit_of_mem_digitChars, .inr rfl, ?_⟩
      rw [List.append_assoc]
      rfl
  · split
    · rw [String.toList_ofList]
      exact ⟨['0'], '.', _, List.cons_ne_nil _ _, fun c hc ↦ List.mem_singleton.mp hc ▸ rfl,
        .inl rfl, rfl⟩
    · simp only [String.toList_ofList]
      refine ⟨_, '.', _, ?_, fun c hc ↦ ?_, .inl rfl, rfl⟩
      · intro hnil
        rw [List.take_eq_nil_iff] at hnil
        rcases hnil with hnil | hnil
        · omega
        · exact hne (List.append_eq_nil_iff.mp hnil).1
      · rcases List.mem_append.mp (List.mem_of_mem_take hc) with hc | hc
        · exact isDigit_of_mem_digitChars hc
        · exact hzeros _ c hc

/-- The digits in front are followed by a point or an exponent. -/
def HasPoint (bs : Bytes) : Prop := ∃ b ∈ (bs.dropWhile isDigit).head?, b = 46 ∨ b = 101

theorem dropWhile_appendDigits (n k : Nat) (bs : Bytes) :
    (appendDigits n k bs).2.2.dropWhile isDigit = bs.dropWhile isDigit := by
  induction bs generalizing n k with
  | nil => rfl
  | cons b bs ih =>
    rw [appendDigits]
    split
    · rename_i hfits
      rw [ih, List.dropWhile_cons, if_pos (Bool.and_eq_true_iff.mp hfits).1]
    · rfl

theorem isFloat_of_afterInteger {bs r : Bytes} {negative : Bool} {significand : Nat} {n : Number}
    (hpoint : HasPoint bs) (hdigit : ¬startsWithDigit bs = true)
    (h : afterInteger negative significand bs = .ok (n, r)) : ∃ x, n = .float x := by
  cases bs with
  | nil =>
    obtain ⟨b, hb, _⟩ := hpoint
    cases hb
  | cons b bs =>
    obtain ⟨b', hb', hkind⟩ := hpoint
    have hdigit' : ¬isDigit b = true := hdigit
    rw [List.dropWhile_cons, if_neg hdigit'] at hb'
    cases hb'
    rw [afterInteger] at h
    split at h
    · obtain ⟨⟨x, left⟩, _, heq⟩ := bind_eq_ok_iff.mp h
      cases heq
      exact ⟨x, rfl⟩
    · rename_i hnot
      rw [if_pos (.inl (hkind.resolve_left hnot))] at h
      obtain ⟨⟨x, left⟩, _, heq⟩ := bind_eq_ok_iff.mp h
      cases heq
      exact ⟨x, rfl⟩

theorem isFloat_of_number {bs r : Bytes} {negative : Bool} {n : Number} (hpoint : HasPoint bs)
    (h : number negative bs = .ok (n, r)) : ∃ x, n = .float x := by
  cases bs with
  | nil => cases h
  | cons b bs =>
    rw [number] at h
    by_cases hdigit : isDigit b = true
    · rw [HasPoint, List.dropWhile_cons, if_pos hdigit] at hpoint
      split at h
      · split at h
        · cases h
        · exact isFloat_of_afterInteger hpoint ‹_› h
      · have hleft := dropWhile_appendDigits (digitValue b) 1 bs
        rcases hd : appendDigits (digitValue b) 1 bs with ⟨m, k, left⟩
        rw [hd] at h hleft
        dsimp only at h hleft
        split at h
        · obtain ⟨⟨x, left'⟩, _, heq⟩ := bind_eq_ok_iff.mp h
          cases heq
          exact ⟨x, rfl⟩
        · refine isFloat_of_afterInteger ?_ ‹_› h
          rw [HasPoint, hleft]
          exact hpoint
    · -- a number starts with a digit
      have hzero : b ≠ 48 := by
        rintro rfl
        exact hdigit rfl
      rw [if_neg hzero, if_neg hdigit] at h
      cases h

theorem hasPoint_of_isFloatText {cs : List Char} (h : IsFloatText cs) :
    HasPoint (cs.flatMap String.utf8EncodeChar) := by
  obtain ⟨ds, c, tail, _, hds, hc, rfl⟩ := h
  have hdrop (rest : Bytes) :
      (digitBytes ds ++ rest).dropWhile isDigit = rest.dropWhile isDigit := by
    refine List.dropWhile_append_of_pos fun b hb ↦ ?_
    obtain ⟨d, hd, rfl⟩ := List.mem_map.mp hb
    exact isDigit_ofNat (hds d hd)
  rw [HasPoint, List.flatMap_append, flatMap_utf8EncodeChar hds, hdrop, List.flatMap_cons]
  rcases hc with rfl | rfl
  · exact ⟨46, rfl, .inl rfl⟩
  · exact ⟨101, rfl, .inr rfl⟩

/-- The text of a double, its sign apart. -/
theorem exists_text_eq (x : Binary64) :
    ∃ cs, IsFloatText cs ∧ x.text.toList = if x.isNegative then '-' :: cs else cs := by
  rw [Binary64.text]
  have hbody : IsFloatText
      (if x.magnitude = 0 then "0.0" else (Decimal.shortest x).text).toList := by
    split
    · exact ⟨['0'], '.', ['0'], List.cons_ne_nil _ _, fun c hc ↦ List.mem_singleton.mp hc ▸ rfl,
        .inl rfl, rfl⟩
    · exact isFloatText_text _
  refine ⟨_, hbody, ?_⟩
  split
  · rw [String.toList_append]
    rfl
  · rfl

theorem exists_bytesOf_text_cons (x : Binary64) :
    ∃ b bs, bytesOf x.text = b :: bs ∧ (b = 45 ∨ isDigit b = true) := by
  obtain ⟨cs, ⟨ds, c, tail, hne, hds, _, rfl⟩, htext⟩ := exists_text_eq x
  rw [bytesOf_eq_flatMap, htext]
  split
  · exact ⟨45, _, rfl, .inl rfl⟩
  · rcases ds with _ | ⟨d, ds⟩
    · exact absurd rfl hne
    · have hd := hds d List.mem_cons_self
      have hascii := toNat_of_isDigit hd
      rw [List.cons_append, List.flatMap_cons, utf8EncodeChar_of_ascii (by omega)]
      exact ⟨_, _, rfl, .inr (isDigit_ofNat hd)⟩

/-- What the text of a double is read as, if anything, is a double. -/
theorem isFloat_of_signedNumber_text {x : Binary64} {n : Number} {r : Bytes}
    (h : signedNumber (bytesOf x.text) = .ok (n, r)) : ∃ y, n = .float y := by
  obtain ⟨cs, hcs, htext⟩ := exists_text_eq x
  rw [bytesOf_eq_flatMap, htext] at h
  have hpoint := hasPoint_of_isFloatText hcs
  split at h
  · exact isFloat_of_number hpoint h
  · rcases hbytes : cs.flatMap String.utf8EncodeChar with _ | ⟨b, bs⟩
    · rw [hbytes] at h
      cases h
    · rw [hbytes] at h hpoint
      rw [signedNumber] at h
      split at h
      · -- the digits in front of the point are not a minus sign
        rename_i hminus
        subst hminus
        obtain ⟨b, hb, hkind⟩ := hpoint
        cases hb
        exact absurd hkind (by decide)
      · exact isFloat_of_number hpoint h

/-! ## What is left behind a number -/

theorem suffix_of_appendDigits (n k : Nat) (bs : Bytes) : (appendDigits n k bs).2.2 <:+ bs := by
  induction bs generalizing n k with
  | nil => exact List.suffix_refl []
  | cons b bs ih =>
    rw [appendDigits]
    split
    · exact (ih _ _).trans (List.suffix_cons b bs)
    · exact List.suffix_refl (b :: bs)

theorem suffix_of_scaled {negative : Bool} {significand : Nat} {exponent : Int} {bs r : Bytes}
    {x : Binary64} (h : scaled negative significand exponent bs = .ok (x, r)) : r <:+ bs := by
  rw [scaled] at h
  split at h
  · cases h
    exact List.suffix_refl bs
  · cases h

theorem suffix_of_exponentDigits {negative : Bool} {significand : Nat} {start : Int}
    {shrinks : Bool} {exponent : Nat} {bs r : Bytes} {x : Binary64}
    (h : exponentDigits negative significand start shrinks exponent bs = .ok (x, r)) :
    r <:+ bs := by
  induction bs generalizing exponent with
  | nil =>
    rw [exponentDigits] at h
    exact suffix_of_scaled h
  | cons b bs ih =>
    rw [exponentDigits] at h
    dsimp only at h
    split at h
    · split at h
      · exact (ih h).trans (List.suffix_cons b bs)
      · split at h
        · cases h
        · cases h
          exact (List.dropWhile_suffix isDigit).trans (List.suffix_cons b bs)
    · exact suffix_of_scaled h

theorem suffix_of_exponentBehindSign {negative : Bool} {significand : Nat} {start : Int}
    {shrinks : Bool} {bs r : Bytes} {x : Binary64}
    (h : exponentBehindSign negative significand start shrinks bs = .ok (x, r)) : r <:+ bs := by
  cases bs with
  | nil => cases h
  | cons b bs =>
    rw [exponentBehindSign] at h
    split at h
    · exact (suffix_of_exponentDigits h).trans (List.suffix_cons b bs)
    · cases h

theorem suffix_of_exponentPart {negative : Bool} {significand : Nat} {start : Int} {bs r : Bytes}
    {x : Binary64} (h : exponentPart negative significand start bs = .ok (x, r)) : r <:+ bs := by
  cases bs with
  | nil => cases h
  | cons b bs =>
    rw [exponentPart_cons] at h
    split at h
    · exact (suffix_of_exponentBehindSign h).trans (List.suffix_cons b bs)
    · split at h
      · exact (suffix_of_exponentBehindSign h).trans (List.suffix_cons b bs)
      · exact suffix_of_exponentBehindSign h

theorem suffix_of_afterDigits {negative : Bool} {significand : Nat} {exponent : Int}
    {bs r : Bytes} {x : Binary64} (h : afterDigits negative significand exponent bs = .ok (x, r)) :
    r <:+ bs := by
  cases bs with
  | nil =>
    rw [afterDigits] at h
    exact suffix_of_scaled h
  | cons b bs =>
    rw [afterDigits] at h
    split at h
    · exact (suffix_of_exponentPart h).trans (List.suffix_cons b bs)
    · exact suffix_of_scaled h

theorem suffix_of_fractionPart {negative : Bool} {significand : Nat} {exponent : Int}
    {bs r : Bytes} {x : Binary64}
    (h : fractionPart negative significand exponent bs = .ok (x, r)) : r <:+ bs := by
  have hleft := suffix_of_appendDigits significand 0 bs
  rw [fractionPart] at h
  rcases hd : appendDigits significand 0 bs with ⟨n, k, left⟩
  rw [hd] at h hleft
  dsimp only at h hleft
  split at h
  · exact (suffix_of_afterDigits h).trans ((List.dropWhile_suffix isDigit).trans hleft)
  · split at h
    · cases h
    · exact (suffix_of_afterDigits h).trans hleft

theorem suffix_of_afterInteger {negative : Bool} {significand : Nat} {bs r : Bytes} {n : Number}
    (h : afterInteger negative significand bs = .ok (n, r)) : r <:+ bs := by
  cases bs with
  | nil =>
    rw [afterInteger] at h
    cases h
    exact List.suffix_refl []
  | cons b bs =>
    rw [afterInteger] at h
    split at h
    · obtain ⟨⟨x, left⟩, hx, heq⟩ := bind_eq_ok_iff.mp h
      cases heq
      exact (suffix_of_fractionPart hx).trans (List.suffix_cons b bs)
    · split at h
      · obtain ⟨⟨x, left⟩, hx, heq⟩ := bind_eq_ok_iff.mp h
        cases heq
        exact (suffix_of_exponentPart hx).trans (List.suffix_cons b bs)
      · cases h
        exact List.suffix_refl (b :: bs)

theorem suffix_of_longInteger {negative : Bool} {significand : Nat} {bs r : Bytes} {x : Binary64}
    (h : longInteger negative significand bs = .ok (x, r)) : r <:+ bs := by
  have hleft : bs.dropWhile isDigit <:+ bs := List.dropWhile_suffix isDigit
  rw [longInteger] at h
  generalize bs.dropWhile isDigit = left at h hleft
  split at h
  · exact (suffix_of_fractionPart h).trans ((List.suffix_cons _ _).trans hleft)
  · exact (suffix_of_afterDigits h).trans hleft

theorem suffix_of_number {negative : Bool} {bs r : Bytes} {n : Number}
    (h : number negative bs = .ok (n, r)) : r <:+ bs := by
  cases bs with
  | nil => cases h
  | cons b bs =>
    refine List.IsSuffix.trans ?_ (List.suffix_cons b bs)
    rw [number] at h
    split at h
    · split at h
      · cases h
      · exact suffix_of_afterInteger h
    · split at h
      · have hleft := suffix_of_appendDigits (digitValue b) 1 bs
        rcases hd : appendDigits (digitValue b) 1 bs with ⟨m, k, left⟩
        rw [hd] at h hleft
        dsimp only at h hleft
        split at h
        · obtain ⟨⟨x, left'⟩, hx, heq⟩ := bind_eq_ok_iff.mp h
          cases heq
          exact (suffix_of_longInteger hx).trans hleft
        · exact (suffix_of_afterInteger h).trans hleft
      · cases h

theorem suffix_of_signedNumber {bs r : Bytes} {n : Number}
    (h : signedNumber bs = .ok (n, r)) : r <:+ bs := by
  cases bs with
  | nil => cases h
  | cons b bs =>
    rw [signedNumber] at h
    split at h
    · exact (suffix_of_number h).trans (List.suffix_cons b bs)
    · exact suffix_of_number h

/-! The text of a double has no blanks, so blanks behind it are not part of it. -/

/-- The characters that doubles are written with. -/
def isNumeral (c : Char) : Bool := c.isDigit || ['.', 'e', '+', '-'].contains c

theorem isNumeral_of_isDigit {c : Char} (hc : c.isDigit = true) : isNumeral c = true := by
  rw [isNumeral, hc, Bool.true_or]

theorem isNumeral_of_mem_text {d : Decimal} {c : Char} (hc : c ∈ d.text.toList) :
    isNumeral c = true := by
  have hdigits {c : Char} (hc : c ∈ d.digitChars) : isNumeral c = true :=
    isNumeral_of_isDigit (isDigit_of_mem_digitChars hc)
  have hzeros {k : Nat} {c : Char} (hc : c ∈ List.replicate k '0') : isNumeral c = true :=
    List.eq_of_mem_replicate hc ▸ rfl
  rw [Decimal.text] at hc
  split at hc
  · -- digits with a point among them, the mark of the exponent, and the digits of the exponent
    simp only [String.toList_append, String.toList_ofList, List.mem_append] at hc
    rcases hc with (hc | hc) | hc
    · split at hc
      · rename_i first second rest hds
        rw [hds] at hdigits
        rcases List.mem_cons.mp hc with rfl | hc
        · exact hdigits List.mem_cons_self
        · rcases List.mem_cons.mp hc with rfl | hc
          · rfl
          · exact hdigits (List.mem_cons_of_mem first hc)
      · exact hdigits hc
    · split at hc
      · exact List.all_eq_true.mp (by decide : "e-".toList.all isNumeral) c hc
      · exact List.all_eq_true.mp (by decide : "e+".toList.all isNumeral) c hc
    · rw [Nat.toString_eq_ofList_toDigits, String.toList_ofList] at hc
      exact isNumeral_of_isDigit (Nat.isDigit_of_mem_toDigits (by decide) (by decide) hc)
  · split at hc
    · simp only [String.toList_ofList, List.cons_append, List.mem_cons, List.mem_append] at hc
      rcases hc with rfl | rfl | hc | hc
      · rfl
      · rfl
      · exact hzeros hc
      · exact hdigits hc
    · have hpadded {k : Nat} {c : Char} (hc : c ∈ d.digitChars ++ List.replicate k '0') :
          isNumeral c = true := by
        rcases List.mem_append.mp hc with hc | hc
        · exact hdigits hc
        · exact hzeros hc
      simp only [String.toList_ofList, List.mem_append, List.mem_cons] at hc
      rcases hc with hc | rfl | hc
      · exact hpadded (List.mem_of_mem_take hc)
      · rfl
      · split at hc
        · exact List.mem_singleton.mp hc ▸ rfl
        · exact hpadded (List.mem_of_mem_drop hc)

theorem ne_of_isDigit {b k : UInt8} (hb : isDigit b = true) (hk : isDigit k = false) : b ≠ k := by
  rintro rfl
  rw [hb] at hk
  cases hk

theorem isBlank_of_isDigit {b : UInt8} (hb : isDigit b = true) : isBlank b = false := by
  simp only [isBlank, Bool.or_eq_false_iff, beq_eq_false_iff_ne]
  exact ⟨⟨⟨ne_of_isDigit hb rfl, ne_of_isDigit hb rfl⟩, ne_of_isDigit hb rfl⟩,
    ne_of_isDigit hb rfl⟩

theorem isBlank_of_isNumeral {c : Char} (hc : isNumeral c = true) {b : UInt8}
    (hb : b ∈ String.utf8EncodeChar c) : isBlank b = false := by
  rw [isNumeral, Bool.or_eq_true] at hc
  rcases hc with hc | hc
  · have hascii := toNat_of_isDigit hc
    rw [utf8EncodeChar_of_ascii (by omega), List.mem_singleton] at hb
    rw [hb]
    exact isBlank_of_isDigit (isDigit_ofNat hc)
  · have hall : ['.', 'e', '+', '-'].all
        (fun c ↦ (String.utf8EncodeChar c).all (fun b ↦ !isBlank b)) := by decide
    have hbytes := List.all_eq_true.mp hall c (List.contains_iff_mem.mp hc)
    exact Bool.not_eq_true' _ |>.mp (List.all_eq_true.mp hbytes b hb)

theorem isBlank_of_mem_text {x : Binary64} {b : UInt8} (hb : b ∈ bytesOf x.text) :
    isBlank b = false := by
  rw [bytesOf_eq_flatMap] at hb
  obtain ⟨c, hc, hb⟩ := List.mem_flatMap.mp hb
  refine isBlank_of_isNumeral ?_ hb
  have hbody (c : Char)
      (hc : c ∈ (if x.magnitude = 0 then "0.0" else (Decimal.shortest x).text).toList) :
      isNumeral c = true := by
    split at hc
    · exact List.all_eq_true.mp (by decide : "0.0".toList.all isNumeral) c hc
    · exact isNumeral_of_mem_text hc
  rw [Binary64.text] at hc
  split at hc
  · rw [String.toList_append] at hc
    rcases List.mem_append.mp hc with hc | hc
    · exact List.mem_singleton.mp hc ▸ rfl
    · exact hbody c hc
  · exact hbody c hc

theorem Number.isReadable_float {x : Binary64} {r : Bytes}
    (h : signedNumber (bytesOf x.text) = .ok (.float x, r)) (hr : skipBlanks r = []) :
    (Number.float x).IsReadable := by
  cases r with
  | nil => exact h
  | cons b r =>
    have hb : isBlank b = false :=
      isBlank_of_mem_text ((suffix_of_signedNumber h).subset List.mem_cons_self)
    rw [skipBlanks, List.dropWhile_cons, hb] at hr
    cases hr

end ScriptWasm.Json
