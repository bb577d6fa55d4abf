import ScriptWasm.Proofs.Json.Scalars

/-!
# Every value can be passed over

A value that nobody asked for is passed over by the grammar alone. So none of them is refused: the
walk goes over any value of the grammar, however deep, and stops right behind it. It keeps a stack
of the brackets that are open, and it has no more steps than twice the bytes that were left; each
part of a value is passed over in twice as many steps as it has bytes at most.
-/

namespace ScriptWasm.Json

/-! ## Scalars -/

section Scalars

variable {bytes contents ds fraction exponent rest : Bytes}

theorem skipString_contents (h : IsContents contents) :
    skipString (contents ++ 34 :: rest) = .ok rest := by
  induction h with
  | nil => rw [List.nil_append, skipString.eq_def]; rfl
  | @plain b contents hb _ ih =>
    rw [List.cons_append, skipString.eq_def]
    simp only [if_neg hb.1, if_neg hb.2.1, if_neg hb.2.2]
    exact ih
  | @escape e contents he _ ih =>
    obtain ⟨c, hc⟩ := (exists_shortEscape? he).1
    rw [List.cons_append, List.cons_append, skipString.eq_def]
    simp only [if_neg backslash_ne_quote, if_true, hc, Option.isSome_some]
    exact ih
  | @code a b c d contents ha hb hc hd _ ih =>
    obtain ⟨n, hn⟩ := exists_hexQuad? ha hb hc hd
    simp only [List.cons_append]
    rw [skipString.eq_def]
    simp only [if_neg backslash_ne_quote, if_true, shortEscape?_code, Option.isSome_none,
      Bool.false_eq_true, if_false, ne_eq, not_true_eq_false, hn, Option.isSome_some]
    exact ih

theorem skipDigits_digits (h : IsDigits ds) (hrest : startsWithDigit rest = false) :
    skipDigits (ds ++ rest) = .ok rest := by
  obtain ⟨hne, hds⟩ := h
  cases ds with
  | nil => exact absurd rfl hne
  | cons d ds =>
    rw [List.cons_append, skipDigits, if_pos (hds d List.mem_cons_self),
      dropWhile_digits (fun d hd ↦ hds d (List.mem_cons_of_mem _ hd)) hrest]

theorem skipExponent_exponent (h : IsExponent exponent) (hrest : EndsNumber rest) :
    skipExponent (exponent ++ rest) = .ok rest := by
  rcases h with rfl | ⟨e, sign, ds, he, hsign, hds, rfl⟩
  · cases rest with
    | nil => rfl
    | cons b rest =>
      rw [List.nil_append, skipExponent.eq_def]
      simp only [if_neg hrest.cons.2.2]
  · have hdigits := skipDigits_digits hds hrest.startsWithDigit
    rw [skipExponent.eq_def]
    simp only [List.cons_append, if_pos he]
    rcases hsign with rfl | rfl | rfl
    · -- The first digit is none of the signs.
      obtain ⟨hne, hds⟩ := hds
      cases ds with
      | nil => exact absurd rfl hne
      | cons d ds =>
        have hd := hds d List.mem_cons_self
        split
        · rename_i heq
          exact absurd (List.cons.inj heq).1 (ne_of_isDigit hd rfl)
        · rename_i heq
          exact absurd (List.cons.inj heq).1 (ne_of_isDigit hd rfl)
        · exact hdigits
    · exact hdigits
    · exact hdigits

theorem skipFraction_fraction (hfraction : IsFraction fraction) (h : IsExponent exponent)
    (hrest : EndsNumber rest) : skipFraction (fraction ++ (exponent ++ rest)) = .ok rest := by
  have hexponent := skipExponent_exponent h hrest
  rcases hfraction with rfl | ⟨ds, ⟨hne, hds⟩, rfl⟩
  · rw [List.nil_append, skipFraction]
    · exact hexponent
    · intro tail htail
      rcases h with rfl | ⟨e, sign, ds, rfl | rfl, -, -, rfl⟩
      · rw [List.nil_append] at htail
        rw [htail] at hrest
        exact hrest.cons.2.1 rfl
      · cases htail
      · cases htail
  · have hstop := h.startsWithDigit hrest
    have hstart : startsWithDigit (ds ++ (exponent ++ rest)) = true := by
      rw [startsWithDigit_digits hds hstop, Bool.not_eq_true', List.isEmpty_eq_false_iff]
      exact hne
    rw [List.cons_append, skipFraction, if_pos hstart, dropWhile_digits hds hstop]
    exact hexponent

theorem skipNumber_magnitude (h : IsMagnitude bytes) (hrest : EndsNumber rest) :
    skipNumber (bytes ++ rest) = .ok rest := by
  obtain ⟨whole, fraction, exponent, hwhole, hfraction, hexponent, rfl⟩ := h
  have hskip := skipFraction_fraction hfraction hexponent hrest
  have hstop := hfraction.startsWithDigit (hexponent.startsWithDigit hrest)
  rw [List.append_assoc, List.append_assoc]
  rcases hwhole with rfl | ⟨b, ds, hb, hzero, hds, rfl⟩
  · rw [List.singleton_append, skipNumber, if_pos rfl, hstop]
    exact hskip
  · rw [List.cons_append, skipNumber, if_neg hzero, if_pos hb, dropWhile_digits hds hstop]
    exact hskip

end Scalars

/-! ## Walks -/

/-- The walk passes over the bytes, in no more steps than there are for them. -/
def Passes (bytes : Bytes) : Prop :=
  ∃ n ≤ 2 * bytes.length, ∀ steps open_ front rest, IsBlanks front → EndsNumber rest →
    skipSteps (steps + n) .value open_ (front ++ (bytes ++ rest)) = skipSteps steps .done open_ rest

theorem skipSteps_blanks {steps : Nat} {open_ : List Bracket} {front rest : Bytes}
    (hfront : IsBlanks front) :
    skipSteps (steps + 1) .value open_ (front ++ rest) =
      skipSteps (steps + 1) .value open_ rest := by
  rw [skipSteps, skipSteps, hfront.skipBlanks]

/-- A number is told by its first byte. -/
theorem skipSteps_digit {steps : Nat} {open_ : List Bracket} {b : UInt8} {rest : Bytes}
    (hb : isDigit b = true) : skipSteps (steps + 1) .value open_ (b :: rest) =
      skipNumber (b :: rest) >>= skipSteps steps .done open_ := by
  rw [skipSteps, Reader.skipBlanks_cons (isBlank_of_isDigit hb)]
  simp only [if_neg (ne_of_isDigit hb (k := 110) rfl), if_neg (ne_of_isDigit hb (k := 116) rfl),
    if_neg (ne_of_isDigit hb (k := 102) rfl), if_neg (ne_of_isDigit hb (k := 45) rfl), if_pos hb]

theorem skipSteps_word {steps : Nat} {open_ : List Bracket} {b : UInt8} {w : Bytes}
    (hbranch : ∀ bytes, skipSteps (steps + 1) .value open_ (b :: bytes) =
      word w bytes >>= skipSteps steps .done open_) (rest : Bytes) :
    skipSteps (steps + 1) .value open_ (b :: w ++ rest) = skipSteps steps .done open_ rest := by
  rw [List.cons_append, hbranch, Reader.word_append, ok_bind]

theorem passes_scalar {bytes : Bytes} (h : IsScalar bytes) : Passes bytes := by
  obtain ⟨b, bs, hbytes, -⟩ := h.exists_cons
  refine ⟨1, by rw [hbytes, List.length_cons]; omega, fun steps open_ front rest hfront hrest ↦ ?_⟩
  rw [skipSteps_blanks hfront]
  cases h with
  | null => exact skipSteps_word (fun _ ↦ rfl) rest
  | true => exact skipSteps_word (fun _ ↦ rfl) rest
  | false => exact skipSteps_word (fun _ ↦ rfl) rest
  | number h =>
    obtain ⟨magnitude, hmagnitude, rfl | rfl⟩ := h
    · have hskip := skipNumber_magnitude hmagnitude hrest
      obtain ⟨whole, fraction, exponent, hwhole, -, -, rfl⟩ := hmagnitude
      obtain ⟨d, ds, rfl, hd⟩ := hwhole.exists_cons
      rw [List.cons_append, List.cons_append] at hskip ⊢
      rw [skipSteps_digit hd, hskip, ok_bind]
    · have hbranch (bytes : Bytes) : skipSteps (steps + 1) .value open_ (45 :: bytes) =
          skipNumber bytes >>= skipSteps steps .done open_ := rfl
      rw [List.cons_append, hbranch, skipNumber_magnitude hmagnitude hrest, ok_bind]
  | string h =>
    obtain ⟨contents, hcontents, rfl⟩ := h
    have hbranch (bytes : Bytes) : skipSteps (steps + 1) .value open_ (34 :: bytes) =
        skipString bytes >>= skipSteps steps .done open_ := rfl
    rw [List.cons_append, List.append_assoc, hbranch, List.singleton_append,
      skipString_contents hcontents, ok_bind]

/-! ### Parts of brackets -/

/-- What stands between brackets of a kind, between the commas. -/
def Bracket.IsPart : Bracket → (Bytes → Prop) → Bytes → Prop
  | .list => IsPadded
  | .object => IsMember

section Parts

variable {P : Bytes → Prop} {bracket : Bracket} {part inner : Bytes}

/-- The blanks in front of a part can be dropped. -/
theorem Bracket.IsPart.exists_cons (hP : ∀ u, P u → ∃ b bs, u = b :: bs ∧ StartsValue b)
    (h : bracket.IsPart P part) : ∃ front b bs, IsBlanks front ∧ part = front ++ b :: bs ∧
      isBlank b = false ∧ b ≠ bracket.closing ∧ bracket.IsPart P (b :: bs) := by
  cases bracket with
  | list =>
    obtain ⟨front, u, back, hfront, hu, hback, rfl⟩ := h
    obtain ⟨b, bs, rfl, hb⟩ := hP u hu
    exact ⟨front, b, bs ++ back, hfront, rfl, hb.isBlank, hb.ne_bracket,
      [], b :: bs, back, .nil, hu, hback, rfl⟩
  | object =>
    obtain ⟨key, element, ⟨front, u, back, hfront, hu, hback, rfl⟩, helement, rfl⟩ := h
    obtain ⟨contents, hcontents, rfl⟩ := hu
    refine ⟨front, 34, contents ++ [34] ++ back ++ 58 :: element, hfront, ?_, rfl, by decide,
      34 :: (contents ++ [34]) ++ back, element,
      ⟨[], _, back, .nil, ⟨contents, hcontents, rfl⟩, hback, rfl⟩, helement, rfl⟩
    simp only [List.append_assoc, List.cons_append]

/-- Behind the key of a part, if it has one, is its value. -/
theorem Bracket.IsPart.skipKey (h : bracket.IsPart P part) :
    ∃ front u back, IsBlanks front ∧ P u ∧ IsBlanks back ∧ u.length ≤ part.length ∧
      ∀ rest, Json.skipKey bracket (part ++ rest) = .ok (front ++ (u ++ (back ++ rest))) := by
  cases bracket with
  | list =>
    obtain ⟨front, u, back, hfront, hu, hback, rfl⟩ := h
    refine ⟨front, u, back, hfront, hu, hback, ?_, fun rest ↦ ?_⟩
    · simp only [List.length_append]
      omega
    · rw [Json.skipKey, List.append_assoc, List.append_assoc]
  | object =>
    obtain ⟨key, element, ⟨before, u, after, hbefore, ⟨contents, hcontents, rfl⟩, hafter, rfl⟩,
      ⟨front, v, back, hfront, hv, hback, rfl⟩, rfl⟩ := h
    refine ⟨front, v, back, hfront, hv, hback, ?_, fun rest ↦ ?_⟩
    · simp only [List.length_append, List.length_cons]
      omega
    · have hquote : isBlank 34 = false := rfl
      have hcolon : isBlank 58 = false := rfl
      simp only [Json.skipKey, List.append_assoc, List.cons_append, List.nil_append,
        hbefore.skipBlanks_cons hquote, ne_eq, not_true_eq_false, if_false,
        skipString_contents hcontents, ok_bind, hafter.skipBlanks_cons hcolon, if_true]

theorem Separated.exists_cons (hP : ∀ u, P u → ∃ b bs, u = b :: bs ∧ StartsValue b)
    (h : Separated (bracket.IsPart P) inner) : ∃ front b bs, IsBlanks front ∧
      inner = front ++ b :: bs ∧ isBlank b = false ∧ b ≠ bracket.closing ∧
      Separated (bracket.IsPart P) (b :: bs) := by
  cases h with
  | last h =>
    obtain ⟨front, b, bs, hfront, rfl, hb, hclosing, hpart⟩ := h.exists_cons hP
    exact ⟨front, b, bs, hfront, rfl, hb, hclosing, .last hpart⟩
  | @cons part rest h hrest =>
    obtain ⟨front, b, bs, hfront, rfl, hb, hclosing, hpart⟩ := h.exists_cons hP
    exact ⟨front, b, bs ++ 44 :: rest, hfront, List.append_assoc .., hb, hclosing,
      .cons hpart hrest⟩

theorem Bracket.isBlank_closing (bracket : Bracket) : isBlank bracket.closing = false := by
  cases bracket <;> rfl

theorem Bracket.closing_ne_comma (bracket : Bracket) : bracket.closing ≠ 44 := by
  cases bracket <;> decide

theorem Bracket.endsNumber_closing (bracket : Bracket) (rest : Bytes) :
    EndsNumber (bracket.closing :: rest) :=
  Reader.endsNumber_cons (by cases bracket <;> rfl)

theorem skipSteps_close {steps : Nat} {open_ : List Bracket} {back rest : Bytes}
    (hback : IsBlanks back) :
    skipSteps (steps + 1) .done (bracket :: open_) (back ++ bracket.closing :: rest) =
      skipSteps steps .done open_ rest := by
  rw [skipSteps, hback.skipBlanks_cons bracket.isBlank_closing]
  simp only [if_neg bracket.closing_ne_comma, if_true]

theorem skipSteps_comma {steps : Nat} {open_ : List Bracket} {back rest : Bytes}
    (hback : IsBlanks back) :
    skipSteps (steps + 1) .done (bracket :: open_) (back ++ 44 :: rest) =
      skipKey bracket rest >>= skipSteps steps .value (bracket :: open_) := by
  rw [skipSteps, hback.skipBlanks_cons rfl]
  rfl

/-- Parts are passed over one after the other, up to the closing bracket. -/
theorem skipSteps_separated (hP : ∀ u, P u → Passes u) (h : Separated (bracket.IsPart P) inner) :
    ∃ n ≤ 2 * inner.length + 1, ∀ steps open_ rest,
      (skipKey bracket (inner ++ bracket.closing :: rest) >>=
        skipSteps (steps + n) .value (bracket :: open_)) = skipSteps steps .done open_ rest := by
  induction h with
  | @last part h =>
    obtain ⟨front, u, back, hfront, hu, hback, hlength, hkey⟩ := h.skipKey
    obtain ⟨n, hn, hpass⟩ := hP u hu
    -- The last step is for the closing bracket, which is not counted in the length.
    refine ⟨1 + n, by omega, fun steps open_ rest ↦ ?_⟩
    rw [hkey, ok_bind, ← Nat.add_assoc, hpass _ _ _ _ hfront
      (hback.endsNumber (bracket.endsNumber_closing rest)), skipSteps_close hback]
  | @cons part inner h _ ih =>
    obtain ⟨front, u, back, hfront, hu, hback, hlength, hkey⟩ := h.skipKey
    obtain ⟨n, hn, hpass⟩ := hP u hu
    obtain ⟨m, hm, hrest⟩ := ih
    refine ⟨m + 1 + n, by simp only [List.length_append, List.length_cons]; omega,
      fun steps open_ rest ↦ ?_⟩
    have hcomma : EndsNumber (44 :: (inner ++ bracket.closing :: rest)) :=
      Reader.endsNumber_cons rfl
    rw [List.append_assoc, List.cons_append, hkey, ok_bind, ← Nat.add_assoc,
      hpass _ _ _ _ hfront (hback.endsNumber hcomma), ← Nat.add_assoc, skipSteps_comma hback]
    exact hrest steps open_ rest

/-- A bracket with what is inside of it, from behind the opening one. -/
theorem skipSteps_opened (hstart : ∀ u, P u → ∃ b bs, u = b :: bs ∧ StartsValue b)
    (hP : ∀ u, P u → Passes u) (h : IsBlanks inner ∨ Separated (bracket.IsPart P) inner) :
    ∃ n ≤ 2 * inner.length + 2, ∀ steps open_ rest,
      skipSteps (steps + n) .opened (bracket :: open_) (inner ++ bracket.closing :: rest) =
        skipSteps steps .done open_ rest := by
  rcases h with h | h
  · refine ⟨1, by omega, fun steps open_ rest ↦ ?_⟩
    rw [skipSteps, h.skipBlanks_cons bracket.isBlank_closing]
    simp only [if_true]
  · -- The walk goes on behind the blanks, so the parts have to be taken from there.
    obtain ⟨front, b, bs, hfront, rfl, hb, hclosing, hparts⟩ := h.exists_cons hstart
    obtain ⟨n, hn, hpass⟩ := skipSteps_separated hP hparts
    refine ⟨n + 1, by rw [List.length_append]; omega, fun steps open_ rest ↦ ?_⟩
    rw [List.append_assoc, List.cons_append, ← Nat.add_assoc, skipSteps, hfront.skipBlanks_cons hb]
    simp only [if_neg hclosing]
    exact hpass steps open_ rest

theorem passes_bracket (bracket : Bracket) {opening : UInt8}
    (hopen : ∀ steps open_ rest, skipSteps (steps + 1) .value open_ (opening :: rest) =
      skipSteps steps .opened (bracket :: open_) rest)
    (hstart : ∀ u, P u → ∃ b bs, u = b :: bs ∧ StartsValue b) (hP : ∀ u, P u → Passes u)
    (h : IsBlanks inner ∨ Separated (bracket.IsPart P) inner) :
    Passes (opening :: (inner ++ [bracket.closing])) := by
  obtain ⟨n, hn, hpass⟩ := skipSteps_opened hstart hP h
  refine ⟨n + 1, by simp only [List.length_cons, List.length_append, List.length_nil]; omega,
    fun steps open_ front rest hfront _ ↦ ?_⟩
  rw [← Nat.add_assoc, skipSteps_blanks hfront, List.cons_append, List.append_assoc, hopen]
  exact hpass steps open_ rest

end Parts

/-! ## Values -/

/-- No value of the grammar is refused. -/
theorem IsText.passes {depth : Nat} {bytes : Bytes} (h : IsText depth bytes) : Passes bytes := by
  induction depth generalizing bytes with
  | zero => exact passes_scalar h
  | succ depth ih =>
    rcases h with h | ⟨inner, hinner, rfl⟩ | ⟨inner, hinner, rfl⟩
    · exact passes_scalar h
    · exact passes_bracket .list (fun _ _ _ ↦ rfl) (fun _ hu ↦ hu.exists_cons) (fun _ hu ↦ ih hu)
        hinner
    · exact passes_bracket .object (fun _ _ _ ↦ rfl) (fun _ hu ↦ hu.exists_cons) (fun _ hu ↦ ih hu)
        hinner

theorem skipValue_text {depth : Nat} {bytes front rest : Bytes} (h : IsText depth bytes)
    (hfront : IsBlanks front) (hrest : EndsNumber rest) :
    skipValue (front ++ (bytes ++ rest)) = .ok rest := by
  obtain ⟨n, hn, hpass⟩ := h.passes
  have hsteps : 2 * (front ++ (bytes ++ rest)).length + 2 =
      2 * (front ++ (bytes ++ rest)).length + 1 - n + 1 + n := by
    simp only [List.length_append]
    omega
  rw [skipValue, hsteps, hpass _ _ _ _ hfront hrest]
  rfl

end ScriptWasm.Json
