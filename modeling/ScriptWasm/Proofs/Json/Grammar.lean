import ScriptWasm.Proofs.Json.Reading

/-!
# The grammar of texts

What is a JSON text, apart from what any reader makes of it. Blanks may stand around every value,
every key, and between empty brackets; numbers have no range, and an escaped code may be any four
hexadecimal digits. A list or an object puts values one level deeper, so the texts are defined level
by level, each from the texts of the level below it.

The bytes inside of quotes are those of a text already, so any byte that does not mean something
there may stand for itself.
-/

namespace ScriptWasm.Json

/-- Blanks, or nothing at all. -/
def IsBlanks (bytes : Bytes) : Prop := ∀ b ∈ bytes, isBlank b = true

instance (bytes : Bytes) : Decidable (IsBlanks bytes) :=
  decidable_of_iff (bytes.all isBlank = true) List.all_eq_true

/-! ## Scalars -/

/-- One digit or more. -/
def IsDigits (bytes : Bytes) : Prop := bytes ≠ [] ∧ ∀ b ∈ bytes, isDigit b = true

/-- Digits of which the first is no zero, unless it is the only one. -/
def IsInteger (bytes : Bytes) : Prop :=
  bytes = [48] ∨ ∃ b ds, isDigit b = true ∧ b ≠ 48 ∧ (∀ d ∈ ds, isDigit d = true) ∧ bytes = b :: ds

/-- A point with digits behind it, or nothing. -/
def IsFraction (bytes : Bytes) : Prop := bytes = [] ∨ ∃ ds, IsDigits ds ∧ bytes = 46 :: ds

/-- An `e` with a sign or none and digits behind it, or nothing. -/
def IsExponent (bytes : Bytes) : Prop :=
  bytes = [] ∨ ∃ e sign ds, (e = 101 ∨ e = 69) ∧ (sign = [] ∨ sign = [43] ∨ sign = [45]) ∧
    IsDigits ds ∧ bytes = e :: (sign ++ ds)

/-- A number without its sign. -/
def IsMagnitude (bytes : Bytes) : Prop :=
  ∃ whole fraction exponent, IsInteger whole ∧ IsFraction fraction ∧ IsExponent exponent ∧
    bytes = whole ++ (fraction ++ exponent)

def IsNumber (bytes : Bytes) : Prop :=
  ∃ magnitude, IsMagnitude magnitude ∧ (bytes = magnitude ∨ bytes = 45 :: magnitude)

def IsHexDigit (b : UInt8) : Prop :=
  isDigit b = true ∨ (65 ≤ b ∧ b ≤ 70) ∨ (97 ≤ b ∧ b ≤ 102)

/-- What may stand between quotes. -/
inductive IsContents : Bytes → Prop
  | nil : IsContents []
  | plain {b : UInt8} {rest : Bytes} (hb : IsPlain b) (h : IsContents rest) : IsContents (b :: rest)
  | escape {e : UInt8} {rest : Bytes} (he : e ∈ [34, 92, 47, 98, 102, 110, 114, 116])
      (h : IsContents rest) : IsContents (92 :: e :: rest)
  | code {a b c d : UInt8} {rest : Bytes} (ha : IsHexDigit a) (hb : IsHexDigit b)
      (hc : IsHexDigit c) (hd : IsHexDigit d) (h : IsContents rest) :
      IsContents (92 :: 117 :: a :: b :: c :: d :: rest)

def IsString (bytes : Bytes) : Prop :=
  ∃ contents, IsContents contents ∧ bytes = 34 :: (contents ++ [34])

instance (b : UInt8) : Decidable (IsPlain b) :=
  inferInstanceAs (Decidable (b ≠ 34 ∧ b ≠ 92 ∧ ¬b < 32))

theorem isString_of_plain (contents : Bytes) (h : contents.all (IsPlain ·) = true) :
    IsString (34 :: (contents ++ [34])) := by
  refine ⟨contents, ?_, rfl⟩
  induction contents with
  | nil => exact .nil
  | cons b contents ih =>
    rw [List.all_cons, Bool.and_eq_true, decide_eq_true_iff] at h
    exact .plain h.1 (ih h.2)

/-- A value without brackets. -/
inductive IsScalar : Bytes → Prop
  | null : IsScalar (110 :: wordNull)
  | true : IsScalar (116 :: wordTrue)
  | false : IsScalar (102 :: wordFalse)
  | number {bytes : Bytes} (h : IsNumber bytes) : IsScalar bytes
  | string {bytes : Bytes} (h : IsString bytes) : IsScalar bytes

/-! ## Brackets -/

/-- Something with blanks around it. -/
def IsPadded (P : Bytes → Prop) (bytes : Bytes) : Prop :=
  ∃ front inner back, IsBlanks front ∧ P inner ∧ IsBlanks back ∧ bytes = front ++ (inner ++ back)

theorem IsPadded.of {P : Bytes → Prop} {bytes : Bytes} (h : P bytes) : IsPadded P bytes :=
  ⟨[], bytes, [], fun _ h ↦ absurd h List.not_mem_nil, h, fun _ h ↦ absurd h List.not_mem_nil,
    (List.append_nil bytes).symm⟩

/-- One part or more, with commas between them. -/
inductive Separated (P : Bytes → Prop) : Bytes → Prop
  | last {part : Bytes} (h : P part) : Separated P part
  | cons {part rest : Bytes} (h : P part) (hrest : Separated P rest) :
      Separated P (part ++ 44 :: rest)

/-- A list of values that are as given. -/
def IsArray (P : Bytes → Prop) (bytes : Bytes) : Prop :=
  ∃ inner, (IsBlanks inner ∨ Separated (IsPadded P) inner) ∧ bytes = 91 :: (inner ++ [93])

/-- A key and a value. -/
def IsMember (P : Bytes → Prop) (bytes : Bytes) : Prop :=
  ∃ key element, IsPadded IsString key ∧ IsPadded P element ∧ bytes = key ++ 58 :: element

/-- An object with values that are as given. -/
def IsObject (P : Bytes → Prop) (bytes : Bytes) : Prop :=
  ∃ inner, (IsBlanks inner ∨ Separated (IsMember P) inner) ∧ bytes = 123 :: (inner ++ [125])

/-- A value in which no more than `depth` brackets are open anywhere. -/
def IsText : (depth : Nat) → Bytes → Prop
  | 0, bytes => IsScalar bytes
  | depth + 1, bytes =>
    IsScalar bytes ∨ IsArray (IsText depth) bytes ∨ IsObject (IsText depth) bytes

/-! ## Blanks -/

variable {bytes front inner back rest : Bytes} {depth : Nat} {P : Bytes → Prop}

theorem IsBlanks.nil : IsBlanks [] := fun _ h ↦ absurd h List.not_mem_nil

theorem IsBlanks.skipBlanks (h : IsBlanks front) (rest : Bytes) :
    skipBlanks (front ++ rest) = Json.skipBlanks rest :=
  List.dropWhile_append_of_pos h

theorem IsBlanks.skipBlanks_cons (h : IsBlanks front) {b : UInt8} (hb : isBlank b = false) :
    Json.skipBlanks (front ++ b :: rest) = b :: rest := by
  rw [h.skipBlanks, Reader.skipBlanks_cons hb]

/-- No number goes on with a blank. -/
theorem IsBlanks.endsNumber (h : IsBlanks front) (hrest : EndsNumber rest) :
    EndsNumber (front ++ rest) := by
  cases front with
  | nil => exact hrest
  | cons b front =>
    have hb : isBlank b = true := h b List.mem_cons_self
    refine Reader.endsNumber_cons ?_
    simp only [isBlank, Bool.or_eq_true, beq_iff_eq] at hb
    rcases hb with ((rfl | rfl) | rfl) | rfl <;> rfl

/-! ## First bytes -/

theorem IsInteger.exists_cons (h : IsInteger bytes) :
    ∃ b ds, bytes = b :: ds ∧ isDigit b = true := by
  rcases h with rfl | ⟨b, ds, hb, -, -, rfl⟩
  · exact ⟨48, [], rfl, rfl⟩
  · exact ⟨b, ds, rfl, hb⟩

theorem IsNumber.exists_cons (h : IsNumber bytes) :
    ∃ b bs, bytes = b :: bs ∧ (b = 45 ∨ isDigit b = true) := by
  obtain ⟨magnitude, ⟨whole, fraction, exponent, hwhole, -, -, rfl⟩, rfl | rfl⟩ := h
  · obtain ⟨b, ds, rfl, hb⟩ := hwhole.exists_cons
    exact ⟨b, ds ++ (fraction ++ exponent), rfl, .inr hb⟩
  · exact ⟨45, _, rfl, .inl rfl⟩

/-- A byte that a value may start with: no blank, no comma, and not the end of a list. -/
structure StartsValue (b : UInt8) : Prop where
  isBlank : isBlank b = false
  ne_comma : b ≠ 44
  ne_bracket : b ≠ 93

theorem StartsValue.of_number {b : UInt8} (h : b = 45 ∨ isDigit b = true) : StartsValue b := by
  rcases h with rfl | h
  · exact ⟨rfl, by decide, by decide⟩
  · exact ⟨isBlank_of_isDigit h, ne_of_isDigit h rfl, ne_of_isDigit h rfl⟩

/-- No bracket opens a scalar. -/
theorem IsScalar.exists_cons (h : IsScalar bytes) :
    ∃ b bs, bytes = b :: bs ∧ StartsValue b ∧ b ≠ 91 ∧ b ≠ 123 := by
  have hword {b : UInt8} {bs : Bytes} (hb : b ∈ [110, 116, 102, 34]) :
      ∃ b' bs', b :: bs = b' :: bs' ∧ StartsValue b' ∧ b' ≠ 91 ∧ b' ≠ 123 := by
    simp only [List.mem_cons, List.not_mem_nil, or_false] at hb
    refine ⟨b, bs, rfl, ?_⟩
    rcases hb with rfl | rfl | rfl | rfl <;>
      exact ⟨⟨rfl, by decide, by decide⟩, by decide, by decide⟩
  cases h with
  | null => exact hword (by decide)
  | true => exact hword (by decide)
  | false => exact hword (by decide)
  | number h =>
    obtain ⟨b, bs, rfl, hb⟩ := h.exists_cons
    refine ⟨b, bs, rfl, .of_number hb, ?_⟩
    rcases hb with rfl | hb
    · exact ⟨by decide, by decide⟩
    · exact ⟨ne_of_isDigit hb rfl, ne_of_isDigit hb rfl⟩
  | string h =>
    obtain ⟨contents, -, rfl⟩ := h
    exact hword (by decide)

/-- A value is a scalar, or it has brackets around values that are less deep. -/
theorem IsText.cases (h : IsText depth bytes) :
    IsScalar bytes ∨ ∃ d, depth = d + 1 ∧
      (IsArray (IsText d) bytes ∨ IsObject (IsText d) bytes) := by
  cases depth with
  | zero => exact .inl h
  | succ d => exact h.imp id fun h ↦ ⟨d, rfl, h⟩

theorem IsText.exists_cons (h : IsText depth bytes) : ∃ b bs, bytes = b :: bs ∧ StartsValue b := by
  rcases h.cases with h | ⟨d, -, ⟨inner, -, rfl⟩ | ⟨inner, -, rfl⟩⟩
  · obtain ⟨b, bs, hbytes, hb, -⟩ := h.exists_cons
    exact ⟨b, bs, hbytes, hb⟩
  · exact ⟨91, _, rfl, rfl, by decide, by decide⟩
  · exact ⟨123, _, rfl, rfl, by decide, by decide⟩

/-- What is no number does not start like one. -/
theorem IsText.isNumber_or (h : IsText depth bytes) : IsNumber bytes ∨
    ∃ b bs, bytes = b :: bs ∧ isBlank b = false ∧ b ≠ 45 ∧ ¬isDigit b = true := by
  have hother {b : UInt8} {bs : Bytes} (hb : b ∈ [110, 116, 102, 34, 91, 123]) :
      ∃ b' bs', b :: bs = b' :: bs' ∧ isBlank b' = false ∧ b' ≠ 45 ∧ ¬isDigit b' = true := by
    simp only [List.mem_cons, List.not_mem_nil, or_false] at hb
    refine ⟨b, bs, rfl, ?_⟩
    rcases hb with rfl | rfl | rfl | rfl | rfl | rfl <;> exact ⟨rfl, by decide, by decide⟩
  rcases h.cases with h | ⟨d, -, ⟨inner, -, rfl⟩ | ⟨inner, -, rfl⟩⟩
  · cases h with
    | null => exact .inr (hother (by decide))
    | true => exact .inr (hother (by decide))
    | false => exact .inr (hother (by decide))
    | number h => exact .inl h
    | string h =>
      obtain ⟨contents, -, rfl⟩ := h
      exact .inr (hother (by decide))
  · exact .inr (hother (by decide))
  · exact .inr (hother (by decide))

end ScriptWasm.Json
