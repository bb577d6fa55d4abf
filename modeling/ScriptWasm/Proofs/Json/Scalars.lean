import ScriptWasm.Proofs.Json.Grammar

/-!
# Scalars wherever they stand

A number or a string of the grammar need not be one that can be read: a number may be out of range,
and codes may be halves of surrogate pairs. But whether it can be read, and as what, is a matter of
its own bytes. What follows it does not come into it, as long as no number goes on there.

So the faults and their places are left out here: what matters is `Except.toOption` of a result.
-/

namespace ScriptWasm.Json

section Results

variable {ε α β : Type}

theorem toOption_ok (a : α) : (Except.ok a : Except ε α).toOption = some a := rfl

theorem toOption_error (e : ε) : (Except.error e : Except ε α).toOption = none := rfl

theorem toOption_bind (x : Except ε α) (f : α → Except ε β) :
    (x >>= f).toOption = x.toOption.bind fun a ↦ (f a).toOption := by
  cases x with
  | error e => rfl
  | ok a => rfl

end Results

variable {α : Type}

/-- Scanning takes the bytes off whatever follows them, or refuses them there, all the same. -/
def Scans (scan : Bytes → Except Fault (α × Bytes)) (bytes : Bytes) : Prop :=
  ∃ a? : Option α, ∀ rest, EndsNumber rest →
    (scan (bytes ++ rest)).toOption = a?.map (·, rest)

/-! ## Digits -/

section Digits

variable {ds tail : Bytes} (hds : ∀ d ∈ ds, isDigit d = true)
include hds

theorem dropWhile_digits (htail : startsWithDigit tail = false) :
    (ds ++ tail).dropWhile isDigit = tail := by
  rw [List.dropWhile_append_of_pos hds]
  cases tail with
  | nil => rfl
  | cons b tail =>
    have hb : isDigit b = false := htail
    rw [List.dropWhile_cons, hb]
    rfl

theorem takeWhile_digits (htail : startsWithDigit tail = false) :
    (ds ++ tail).takeWhile isDigit = ds := by
  rw [List.takeWhile_append_of_pos hds]
  cases tail with
  | nil => exact List.append_nil ds
  | cons b tail =>
    have hb : isDigit b = false := htail
    rw [List.takeWhile_cons, hb]
    exact List.append_nil ds

/-- Some of the digits are appended, and the others are left. -/
theorem appendDigits_digits (significand count : Nat) : ∃ n k left,
    (∀ d ∈ left, isDigit d = true) ∧ k + left.length = count + ds.length ∧
      ∀ tail, startsWithDigit tail = false →
        appendDigits significand count (ds ++ tail) = (n, k, left ++ tail) := by
  induction ds generalizing significand count with
  | nil =>
    refine ⟨significand, count, [], hds, rfl, fun tail htail ↦ ?_⟩
    cases tail with
    | nil => rfl
    | cons b tail =>
      have hb : isDigit b = false := htail
      simp [appendDigits, hb]
  | cons d ds ih =>
    by_cases hfits : isDigit d && significand * 10 + digitValue d ≤ largestSignificand
    · obtain ⟨n, k, left, hleft, hcount, happend⟩ :=
        ih (fun d hd ↦ hds d (List.mem_cons_of_mem _ hd)) (significand * 10 + digitValue d)
          (count + 1)
      refine ⟨n, k, left, hleft, by rw [hcount, List.length_cons]; omega, fun tail htail ↦ ?_⟩
      rw [List.cons_append, appendDigits, if_pos hfits]
      exact happend tail htail
    · refine ⟨significand, count, d :: ds, hds, rfl, fun tail _ ↦ ?_⟩
      rw [List.cons_append, appendDigits, if_neg hfits]

end Digits

theorem startsWithDigit_digits {left tail : Bytes} (hleft : ∀ d ∈ left, isDigit d = true)
    (htail : startsWithDigit tail = false) : startsWithDigit (left ++ tail) = !left.isEmpty := by
  cases left with
  | nil => exact htail
  | cons d left => exact hleft d List.mem_cons_self

/-! ## Numbers -/

section Numbers

variable {bytes fraction exponent rest : Bytes}

theorem IsExponent.startsWithDigit (h : IsExponent exponent) (hrest : EndsNumber rest) :
    startsWithDigit (exponent ++ rest) = false := by
  rcases h with rfl | ⟨e, sign, ds, rfl | rfl, -, -, rfl⟩
  · exact hrest.startsWithDigit
  · rfl
  · rfl

theorem IsFraction.startsWithDigit (h : IsFraction fraction)
    (hrest : startsWithDigit rest = false) : startsWithDigit (fraction ++ rest) = false := by
  rcases h with rfl | ⟨ds, -, rfl⟩
  · exact hrest
  · rfl

variable (negative : Bool) (significand : Nat) (start : Int)

theorem scans_scaled : ∃ x? : Option Binary64, ∀ rest,
    (scaled negative significand start rest).toOption = x?.map (·, rest) := by
  cases hx : Binary64.ofScaled? significand start with
  | none =>
    refine ⟨none, fun rest ↦ ?_⟩
    rw [scaled, hx]
    rfl
  | some x =>
    refine ⟨some (withSign negative x), fun rest ↦ ?_⟩
    rw [scaled, hx]
    rfl

theorem scans_exponentDigits (shrinks : Bool) (exponent : Nat) {ds : Bytes}
    (hds : ∀ d ∈ ds, isDigit d = true) :
    Scans (exponentDigits negative significand start shrinks exponent) ds := by
  induction ds generalizing exponent with
  | nil =>
    obtain ⟨x?, hx⟩ := scans_scaled negative significand
      (if shrinks then start - exponent else start + exponent)
    refine ⟨x?, fun rest hrest ↦ ?_⟩
    rw [← hx]
    cases rest with
    | nil => rfl
    | cons b rest =>
      rw [List.nil_append, exponentDigits, hrest.cons.1]
      rfl
  | cons d ds ih =>
    have hd := hds d List.mem_cons_self
    have hds' : ∀ d ∈ ds, isDigit d = true := fun d hd ↦ hds d (List.mem_cons_of_mem _ hd)
    by_cases hfits : exponent * 10 + digitValue d < exponentLimit
    · obtain ⟨x?, hx⟩ := ih (exponent * 10 + digitValue d) hds'
      refine ⟨x?, fun rest hrest ↦ ?_⟩
      rw [List.cons_append, exponentDigits]
      simp only [if_pos hd, if_pos hfits]
      exact hx rest hrest
    · -- Past the limit the digits no longer matter, but they are all passed over.
      by_cases hlarge : significand ≠ 0 && !shrinks
      · refine ⟨none, fun rest _ ↦ ?_⟩
        rw [List.cons_append, exponentDigits]
        simp only [if_pos hd, if_neg hfits, if_pos hlarge]
        rfl
      · refine ⟨some (withSign negative .zero), fun rest hrest ↦ ?_⟩
        rw [List.cons_append, exponentDigits]
        simp only [if_pos hd, if_neg hfits, if_neg hlarge,
          dropWhile_digits hds' hrest.startsWithDigit]
        rfl

theorem scans_exponentBehindSign (shrinks : Bool) {ds : Bytes} (hds : IsDigits ds) :
    Scans (exponentBehindSign negative significand start shrinks) ds := by
  obtain ⟨hne, hds⟩ := hds
  cases ds with
  | nil => exact absurd rfl hne
  | cons d ds =>
    obtain ⟨x?, hx⟩ := scans_exponentDigits negative significand start shrinks (digitValue d)
      fun d hd ↦ hds d (List.mem_cons_of_mem _ hd)
    refine ⟨x?, fun rest hrest ↦ ?_⟩
    rw [List.cons_append, exponentBehindSign, if_pos (hds d List.mem_cons_self)]
    exact hx rest hrest

theorem scans_exponentPart {sign ds : Bytes} (hsign : sign = [] ∨ sign = [43] ∨ sign = [45])
    (hds : IsDigits ds) : Scans (exponentPart negative significand start) (sign ++ ds) := by
  have hminus : (45 : UInt8) ≠ 43 := by decide
  rcases hsign with rfl | rfl | rfl
  · obtain ⟨x?, hx⟩ := scans_exponentBehindSign negative significand start false hds
    refine ⟨x?, fun rest hrest ↦ ?_⟩
    rw [← hx rest hrest]
    obtain ⟨hne, hds⟩ := hds
    cases ds with
    | nil => exact absurd rfl hne
    | cons d ds =>
      have hd := hds d List.mem_cons_self
      rw [List.nil_append, List.cons_append, exponentPart_cons, if_neg (ne_of_isDigit hd rfl),
        if_neg (ne_of_isDigit hd rfl)]
  · obtain ⟨x?, hx⟩ := scans_exponentBehindSign negative significand start false hds
    refine ⟨x?, fun rest hrest ↦ ?_⟩
    rw [List.singleton_append, List.cons_append, exponentPart_cons, if_pos rfl]
    exact hx rest hrest
  · obtain ⟨x?, hx⟩ := scans_exponentBehindSign negative significand start true hds
    refine ⟨x?, fun rest hrest ↦ ?_⟩
    rw [List.singleton_append, List.cons_append, exponentPart_cons, if_neg hminus, if_pos rfl]
    exact hx rest hrest

theorem scans_afterDigits (h : IsExponent exponent) :
    Scans (afterDigits negative significand start) exponent := by
  rcases h with rfl | ⟨e, sign, ds, he, hsign, hds, rfl⟩
  · obtain ⟨x?, hx⟩ := scans_scaled negative significand start
    refine ⟨x?, fun rest hrest ↦ ?_⟩
    rw [← hx]
    cases rest with
    | nil => rfl
    | cons b rest => rw [List.nil_append, afterDigits, if_neg hrest.cons.2.2]
  · obtain ⟨x?, hx⟩ := scans_exponentPart negative significand start hsign hds
    refine ⟨x?, fun rest hrest ↦ ?_⟩
    rw [List.cons_append, afterDigits, if_pos he]
    exact hx rest hrest

theorem scans_fractionPart {ds : Bytes} (hds : IsDigits ds) (h : IsExponent exponent) :
    Scans (fractionPart negative significand start) (ds ++ exponent) := by
  obtain ⟨n, k, left, hleft, hcount, happend⟩ := appendDigits_digits hds.2 significand 0
  obtain ⟨x?, hx⟩ := scans_afterDigits negative n (start - k) h
  refine ⟨x?, fun rest hrest ↦ ?_⟩
  have hstop := h.startsWithDigit hrest
  rw [List.append_assoc, fractionPart, happend _ hstop]
  simp only [startsWithDigit_digits hleft hstop, dropWhile_digits hleft hstop]
  cases left with
  | nil =>
    -- All digits have been appended, and there is one at least.
    have hk : k ≠ 0 := fun h0 ↦ hds.1 (List.length_eq_zero_iff.mp (by simpa [h0] using hcount.symm))
    simp only [List.isEmpty_nil, Bool.not_true, Bool.false_eq_true, if_false, if_neg hk,
      List.nil_append]
    exact hx rest hrest
  | cons d left =>
    simp only [List.isEmpty_cons, Bool.not_false, if_true]
    exact hx rest hrest

theorem scans_afterInteger (hfraction : IsFraction fraction) (h : IsExponent exponent) :
    Scans (afterInteger negative significand) (fraction ++ exponent) := by
  have hpoint {b : UInt8} (hb : b = 101 ∨ b = 69) : b ≠ 46 := by
    rcases hb with rfl | rfl <;> decide
  rcases hfraction with rfl | ⟨ds, hds, rfl⟩
  · rcases h with rfl | ⟨e, sign, ds, he, hsign, hds, rfl⟩
    · refine ⟨some (integer negative significand), fun rest hrest ↦ ?_⟩
      cases rest with
      | nil => rfl
      | cons b rest =>
        rw [List.nil_append, List.nil_append, afterInteger, if_neg hrest.cons.2.1,
          if_neg hrest.cons.2.2]
        rfl
    · obtain ⟨x?, hx⟩ := scans_exponentPart negative significand 0 hsign hds
      refine ⟨x?.map .float, fun rest hrest ↦ ?_⟩
      rw [List.nil_append, List.cons_append, afterInteger, if_neg (hpoint he), if_pos he,
        toOption_bind, hx rest hrest]
      cases x? <;> rfl
  · obtain ⟨x?, hx⟩ := scans_fractionPart negative significand 0 hds h
    refine ⟨x?.map .float, fun rest hrest ↦ ?_⟩
    rw [List.cons_append, List.cons_append, afterInteger, if_pos rfl, toOption_bind,
      hx rest hrest]
    cases x? <;> rfl

theorem scans_longInteger {ds : Bytes} (hds : ∀ d ∈ ds, isDigit d = true)
    (hfraction : IsFraction fraction) (h : IsExponent exponent) :
    Scans (longInteger negative significand) (ds ++ (fraction ++ exponent)) := by
  rcases hfraction with rfl | ⟨more, hmore, rfl⟩
  · obtain ⟨x?, hx⟩ := scans_afterDigits negative significand ds.length h
    refine ⟨x?, fun rest hrest ↦ ?_⟩
    have hstop := h.startsWithDigit hrest
    rw [List.nil_append, List.append_assoc, longInteger, takeWhile_digits hds hstop,
      dropWhile_digits hds hstop, ← hx rest hrest]
    split
    · -- Neither an exponent nor what follows the number starts with a point.
      rename_i tail htail
      rcases h with rfl | ⟨e, sign, ds, rfl | rfl, -, -, rfl⟩
      · rw [List.nil_append] at htail
        rw [htail] at hrest
        exact absurd rfl hrest.cons.2.1
      · cases htail
      · cases htail
    · rfl
  · obtain ⟨x?, hx⟩ := scans_fractionPart negative significand ds.length hmore h
    refine ⟨x?, fun rest hrest ↦ ?_⟩
    have hstop : startsWithDigit (46 :: (more ++ exponent ++ rest)) = false := rfl
    rw [List.append_assoc, List.cons_append, List.cons_append, longInteger,
      takeWhile_digits hds hstop, dropWhile_digits hds hstop]
    exact hx rest hrest

theorem scans_number (h : IsMagnitude bytes) : Scans (number negative) bytes := by
  obtain ⟨whole, fraction, exponent, hwhole, hfraction, hexponent, rfl⟩ := h
  rcases hwhole with rfl | ⟨b, ds, hb, hzero, hds, rfl⟩
  · obtain ⟨n?, hn⟩ := scans_afterInteger negative 0 hfraction hexponent
    refine ⟨n?, fun rest hrest ↦ ?_⟩
    have hstop := hfraction.startsWithDigit (hexponent.startsWithDigit hrest)
    rw [← List.append_assoc] at hstop
    rw [List.singleton_append, List.cons_append, number, if_pos rfl, hstop]
    exact hn rest hrest
  · obtain ⟨n, k, left, hleft, -, happend⟩ := appendDigits_digits hds (digitValue b) 1
    obtain ⟨m?, hm⟩ := scans_afterInteger negative n hfraction hexponent
    obtain ⟨x?, hx⟩ := scans_longInteger negative n hleft hfraction hexponent
    -- Which way it goes depends on the digits alone: there may be too many for a word.
    refine ⟨if left.isEmpty then m? else x?.map .float, fun rest hrest ↦ ?_⟩
    have hstop := hfraction.startsWithDigit (hexponent.startsWithDigit hrest)
    rw [List.cons_append, List.cons_append, number, if_neg hzero, if_pos hb, List.append_assoc,
      List.append_assoc, happend _ hstop]
    simp only [startsWithDigit_digits hleft hstop]
    cases left with
    | nil =>
      rw [List.isEmpty_nil, Bool.not_true, if_neg Bool.false_ne_true, if_pos rfl, List.nil_append,
        ← List.append_assoc]
      exact hm rest hrest
    | cons d left =>
      have hbytes : d :: left ++ (fraction ++ (exponent ++ rest)) =
          d :: left ++ (fraction ++ exponent) ++ rest := by
        rw [List.append_assoc, List.append_assoc]
      rw [List.isEmpty_cons, Bool.not_false, if_pos rfl, if_neg Bool.false_ne_true, toOption_bind,
        hbytes, hx rest hrest]
      cases x? <;> rfl

/-- A number of the grammar is read alike everywhere. -/
theorem scans_signedNumber (h : IsNumber bytes) : Scans signedNumber bytes := by
  obtain ⟨magnitude, hmagnitude, rfl | rfl⟩ := h
  · obtain ⟨n?, hn⟩ := scans_number false hmagnitude
    obtain ⟨whole, fraction, exponent, hwhole, -, -, rfl⟩ := hmagnitude
    obtain ⟨b, ds, rfl, hb⟩ := hwhole.exists_cons
    refine ⟨n?, fun rest hrest ↦ ?_⟩
    rw [← hn rest hrest, List.cons_append, List.cons_append, signedNumber,
      if_neg (ne_of_isDigit hb rfl)]
  · obtain ⟨n?, hn⟩ := scans_number true hmagnitude
    refine ⟨n?, fun rest hrest ↦ ?_⟩
    rw [List.cons_append, signedNumber, if_pos rfl]
    exact hn rest hrest

end Numbers

/-! ## Strings -/

section Strings

variable {a b c d e : UInt8} {n : Nat} {done rest contents : Bytes}

theorem backslash_ne_quote : (92 : UInt8) ≠ 34 := by decide

/-- No short escape is written like a code. -/
theorem shortEscape?_code : shortEscape? 117 = none := by decide

theorem exists_shortEscape? (he : e ∈ [34, 92, 47, 98, 102, 110, 114, 116]) :
    (∃ c, shortEscape? e = some c) ∧ e ≠ 117 := by
  simp only [List.mem_cons, List.not_mem_nil, or_false] at he
  rcases he with rfl | rfl | rfl | rfl | rfl | rfl | rfl | rfl <;>
    exact ⟨⟨_, rfl⟩, by decide⟩

theorem exists_hexDigit? (hb : IsHexDigit b) : ∃ n, hexDigit? b = some n := by
  have hall : ∀ n < 256, (48 ≤ n ∧ n ≤ 57) ∨ (65 ≤ n ∧ n ≤ 70) ∨ (97 ≤ n ∧ n ≤ 102) →
      (Hex.value? (Char.ofNat n)).isSome := by decide +kernel
  simp only [IsHexDigit, isDigit, Bool.and_eq_true, decide_eq_true_eq, UInt8.le_iff_toNat_le] at hb
  exact Option.isSome_iff_exists.mp (hall b.toNat b.toNat_lt hb)

theorem exists_hexQuad? (ha : IsHexDigit a) (hb : IsHexDigit b) (hc : IsHexDigit c)
    (hd : IsHexDigit d) : ∃ n, hexQuad? a b c d = some n := by
  obtain ⟨k, hk⟩ := exists_hexDigit? ha
  obtain ⟨l, hl⟩ := exists_hexDigit? hb
  obtain ⟨m, hm⟩ := exists_hexDigit? hc
  obtain ⟨n, hn⟩ := exists_hexDigit? hd
  exact ⟨_, by simp only [hexQuad?, hk, hl, hm, hn]; rfl⟩

/-- A code that is a whole character. -/
theorem stringBytes_single (hn : hexQuad? a b c d = some n)
    (htrailing : isTrailingSurrogate n = false) (hleading : isLeadingSurrogate n = false) :
    stringBytes done (92 :: 117 :: a :: b :: c :: d :: rest) =
      stringBytes ((codePointBytes n).reverse ++ done) rest := by
  rw [stringBytes.eq_def]
  simp only [if_neg backslash_ne_quote, if_true, shortEscape?_code, ne_eq, not_true_eq_false,
    if_false, hn, htrailing, hleading, Bool.false_eq_true]

/-- A second half without a first one. -/
theorem stringBytes_trailing (hn : hexQuad? a b c d = some n)
    (htrailing : isTrailingSurrogate n = true) :
    (stringBytes done (92 :: 117 :: a :: b :: c :: d :: rest)).toOption = none := by
  rw [stringBytes.eq_def]
  simp only [if_neg backslash_ne_quote, if_true, shortEscape?_code, ne_eq, not_true_eq_false,
    if_false, hn, htrailing]
  rfl

theorem not_isTrailingSurrogate (hleading : isLeadingSurrogate n = true) :
    isTrailingSurrogate n = false := by
  simp only [isLeadingSurrogate, Bool.and_eq_true, decide_eq_true_eq] at hleading
  simp only [isTrailingSurrogate, Bool.and_eq_false_iff, decide_eq_false_iff_not]
  omega

section Pairs

variable (hn : hexQuad? a b c d = some n) (hleading : isLeadingSurrogate n = true)
include hn hleading

/-- A first half that no other code follows. -/
theorem stringBytes_unpaired (hrest : ∀ tail, rest ≠ 92 :: 117 :: tail) :
    (stringBytes done (92 :: 117 :: a :: b :: c :: d :: rest)).toOption = none := by
  rw [stringBytes.eq_def]
  simp only [if_neg backslash_ne_quote, if_true, shortEscape?_code, ne_eq, not_true_eq_false,
    if_false, hn, not_isTrailingSurrogate hleading, Bool.false_eq_true, hleading]
  cases rest with
  | nil => rfl
  | cons x rest =>
    by_cases hx : x = 92
    · cases rest with
      | nil => simp [hx, toOption_error]
      | cons y rest =>
        have hy : y ≠ 117 := fun hy ↦ hrest rest (by rw [hx, hy])
        simp [hx, hy, toOption_error]
    · simp [hx, toOption_error]

/-- Two halves, if the second one is one. -/
theorem stringBytes_pair {a' b' c' d' : UInt8} {m : Nat} (hm : hexQuad? a' b' c' d' = some m) :
    stringBytes done (92 :: 117 :: a :: b :: c :: d :: 92 :: 117 :: a' :: b' :: c' :: d' :: rest) =
      if isTrailingSurrogate m then
        let point := (n - 0xD800) * 1024 + (m - 0xDC00) + 0x10000
        stringBytes ((codePointBytes point).reverse ++ done) rest
      else .error (.behind .loneSurrogate rest) := by
  rw [stringBytes.eq_def]
  simp only [if_neg backslash_ne_quote, if_true, shortEscape?_code, ne_eq, not_true_eq_false,
    if_false, hn, not_isTrailingSurrogate hleading, Bool.false_eq_true, hleading, hm]

end Pairs

/-- The contents of a string are read alike whatever follows the closing quote. -/
theorem scans_stringBytes (h : IsContents contents) (done : Bytes) : ∃ bytes? : Option Bytes,
    ∀ rest, (stringBytes done (contents ++ 34 :: rest)).toOption = bytes?.map (·, rest) := by
  -- A pair of codes is passed over at once, so the induction is on the length.
  induction hlength : contents.length using Nat.strongRecOn generalizing contents done with
  | ind length ih =>
    subst hlength
    cases h with
    | nil => exact ⟨some done.reverse, fun rest ↦ by rw [List.nil_append, stringBytes_quote]; rfl⟩
    | @plain b contents hb h =>
      obtain ⟨bytes?, hbytes⟩ := ih contents.length (Nat.lt_succ_self _) h (b :: done) rfl
      refine ⟨bytes?, fun rest ↦ ?_⟩
      have hplain : stringBytes done ([b] ++ (contents ++ 34 :: rest)) =
          stringBytes (b :: done) (contents ++ 34 :: rest) :=
        stringBytes_plain (fun _ h ↦ List.mem_singleton.mp h ▸ hb) done _
      exact (congrArg Except.toOption hplain).trans (hbytes rest)
    | @escape e contents he h =>
      obtain ⟨c, hc⟩ := (exists_shortEscape? he).1
      obtain ⟨bytes?, hbytes⟩ := ih contents.length (by simp only [List.length_cons]; omega) h
        (c :: done) rfl
      refine ⟨bytes?, fun rest ↦ ?_⟩
      rw [List.cons_append, List.cons_append, stringBytes_shortEscape hc]
      exact hbytes rest
    | @code a b c d contents ha hb hc hd h =>
      obtain ⟨n, hn⟩ := exists_hexQuad? ha hb hc hd
      by_cases htrailing : isTrailingSurrogate n = true
      · exact ⟨none, fun rest ↦ stringBytes_trailing hn htrailing⟩
      by_cases hleading : isLeadingSurrogate n = true
      · -- The other half has to follow at once.
        have hunpaired (hnext : ∀ rest tail, contents ++ 34 :: rest ≠ 92 :: 117 :: tail) :
            ∃ bytes? : Option Bytes, ∀ rest, (stringBytes done
              (92 :: 117 :: a :: b :: c :: d :: contents ++ 34 :: rest)).toOption =
                bytes?.map (·, rest) :=
          ⟨none, fun rest ↦ stringBytes_unpaired hn hleading (hnext rest)⟩
        cases h with
        | nil => exact hunpaired fun rest tail ↦ by simp
        | plain hb h => exact hunpaired fun rest tail heq ↦ hb.2.1 (List.cons.inj heq).1
        | escape he h =>
          exact hunpaired fun rest tail heq ↦
            (exists_shortEscape? he).2 (List.cons.inj (List.cons.inj heq).2).1
        | @code a' b' c' d' contents ha hb hc hd h =>
          obtain ⟨m, hm⟩ := exists_hexQuad? ha hb hc hd
          by_cases hsecond : isTrailingSurrogate m = true
          · obtain ⟨bytes?, hbytes⟩ := ih contents.length (by simp only [List.length_cons]; omega) h
              ((codePointBytes ((n - 0xD800) * 1024 + (m - 0xDC00) + 0x10000)).reverse ++ done) rfl
            refine ⟨bytes?, fun rest ↦ ?_⟩
            simp only [List.cons_append]
            rw [stringBytes_pair hn hleading hm, if_pos hsecond]
            exact hbytes rest
          · refine ⟨none, fun rest ↦ ?_⟩
            simp only [List.cons_append]
            rw [stringBytes_pair hn hleading hm, if_neg hsecond]
            rfl
      · obtain ⟨bytes?, hbytes⟩ := ih contents.length (by simp only [List.length_cons]; omega) h
          ((codePointBytes n).reverse ++ done) rfl
        refine ⟨bytes?, fun rest ↦ ?_⟩
        simp only [List.cons_append]
        rw [stringBytes_single hn (by simpa using htrailing) (by simpa using hleading)]
        exact hbytes rest

/-- A string is read alike everywhere, from behind its opening quote. -/
theorem scans_string (h : IsContents contents) : ∃ s? : Option String,
    ∀ rest, (string (contents ++ 34 :: rest)).toOption = s?.map (·, rest) := by
  obtain ⟨bytes?, hbytes⟩ := scans_stringBytes h []
  refine ⟨bytes?.bind textOf?, fun rest ↦ ?_⟩
  rw [string, toOption_bind, hbytes rest]
  cases bytes? with
  | none => rfl
  | some bytes =>
    simp only [Option.map_some, Option.bind_some]
    cases textOf? bytes with
    | none => rfl
    | some s => rfl

end Strings

end ScriptWasm.Json
