import ScriptWasm.Proofs.Json.Skipping

/-!
# Values wherever they stand

What a reader makes of a value of the grammar does not depend on where the value stands: not on what
comes before or after it, and not on how many brackets are around it, as long as there are levels
enough for those inside of it. Either the reader takes the value off whatever follows, and always
makes the same of it, or it refuses the value everywhere. Only the faults differ, in their places.

Such a reader is uniform. Lists and records of uniform readers are uniform, so the forms that are
made of them are, by following how they are made.
-/

namespace ScriptWasm.Json.Reader

variable {α σ : Type} {depth levels : Nat} {bytes front inner back rest : Bytes}

/-- What reading the bytes of a value that nests `depth` deep ends with, wherever they stand. -/
def Settles (read : Reader α) (depth : Nat) (bytes : Bytes) (a? : Option α) : Prop :=
  ∀ levels front rest, depth < levels → IsBlanks front → EndsNumber rest →
    (read levels (front ++ (bytes ++ rest))).toOption = a?.map (·, rest)

/-- The reader ends with the same on a value that nests `depth` deep, wherever the value stands. -/
def UniformAt (depth : Nat) (read : Reader α) : Prop :=
  ∀ bytes, IsText depth bytes → ∃ a?, Settles read depth bytes a?

theorem start_blanks (hfront : IsBlanks front) {b : UInt8} (hb : isBlank b = false) :
    start (front ++ b :: rest) = .ok (b, rest) := by
  rw [start, hfront.skipBlanks_cons hb]

theorem uniformAt_map {β : Type} (f : α → β) {read : Reader α} (h : UniformAt depth read) :
    UniformAt depth (Source.map f read) := by
  intro bytes hbytes
  obtain ⟨a?, ha⟩ := h bytes hbytes
  refine ⟨a?.map f, fun levels front rest hlevels hfront hrest ↦ ?_⟩
  refine (toOption_bind (read levels (front ++ (bytes ++ rest))) _).trans ?_
  rw [ha levels front rest hlevels hfront hrest]
  cases a? <;> rfl

/-! ## Numbers -/

theorem uniformAt_numeric (expected : String) (make : Number → Except Problem α) :
    UniformAt depth (numeric expected make) := by
  intro bytes hbytes
  rcases hbytes.isNumber_or with hnumber | ⟨b, bs, rfl, hblank, hminus, hdigit⟩
  · obtain ⟨n?, hn⟩ := scans_signedNumber hnumber
    obtain ⟨b, bs, rfl, hb⟩ := hnumber.exists_cons
    refine ⟨n?.bind fun n ↦ (make n).toOption, fun levels front rest _ hfront hrest ↦ ?_⟩
    have hskip : numeric expected make levels (front ++ (b :: bs ++ rest)) =
        numeric expected make levels (b :: (bs ++ rest)) := by
      have hblank := (StartsValue.of_number hb).isBlank
      rw [numeric, numeric, List.cons_append, start_blanks hfront hblank, start_cons hblank]
    rw [hskip, numeric_cons hb, toOption_bind, ← List.cons_append, hn rest hrest]
    cases n? with
    | none => rfl
    | some n =>
      simp only [Option.map_some, Option.bind_some, judged]
      cases make n <;> rfl
  · refine ⟨none, fun levels front rest _ hfront _ ↦ ?_⟩
    rw [numeric, List.cons_append, start_blanks hfront hblank, ok_bind]
    simp only [if_neg hminus, if_neg hdigit]
    rfl

/-! ## Brackets -/

theorem toOption_bracketed (close : Bytes → Except Fault Bytes) (contents : Reader α)
    (hlevels : 1 < levels) (opening : UInt8) (rest : Bytes) :
    (bracketed close contents levels opening rest).toOption =
      (contents (levels - 1) rest).toOption.bind fun r ↦ (close r.2).toOption.map (r.1, ·) := by
  rw [bracketed, if_neg (Nat.not_le.mpr hlevels)]
  cases contents (levels - 1) rest with
  | error f =>
    dsimp only
    cases close f.rest <;> rfl
  | ok r =>
    rw [toOption_ok, Option.bind_some]
    dsimp only
    cases close r.2 <;> rfl

theorem closeList_blanks (hfront : IsBlanks front) :
    closeList (front ++ rest) = closeList rest := by
  rw [closeList, hfront.skipBlanks]
  rfl

/-- The comma in front of a part that is not the first one. -/
def separator (first : Bool) : Bytes := if first then [] else [44]

theorem endsNumber_separator : EndsNumber (separator false ++ rest) := endsNumber_cons rfl

/-! ## Lists -/

theorem nextItem_blanks (first : Bool) (hfront : IsBlanks front) :
    nextItem first (front ++ rest) = nextItem first rest := by
  rw [nextItem, hfront.skipBlanks]
  rfl

/-- A value is the next item, without the blanks in front of it. -/
theorem nextItem_text (first : Bool) (hfront : IsBlanks front) (h : IsText depth bytes) :
    ∃ next, nextItem first (separator first ++ (front ++ (bytes ++ rest))) =
      .ok (some (bytes ++ rest), next) := by
  obtain ⟨b, bs, rfl, hb⟩ := h.exists_cons
  rw [List.cons_append]
  cases first with
  | true =>
    refine ⟨b :: (bs ++ rest), ?_⟩
    rw [separator, if_pos rfl, List.nil_append, nextItem, hfront.skipBlanks_cons hb.isBlank]
    simp only [if_neg hb.ne_bracket, if_true]
  | false =>
    have hcomma : (44 : UInt8) ≠ 93 := by decide
    refine ⟨b :: (bs ++ rest), ?_⟩
    rw [separator, if_neg Bool.false_ne_true, List.singleton_append, nextItem, skipBlanks_cons rfl]
    simp only [if_neg hcomma, if_true, hfront.skipBlanks_cons hb.isBlank, if_neg hb.ne_bracket,
      Bool.false_eq_true, if_false]

section Lists

variable {item : Reader α} {done : List α} {steps : Nat}

theorem toOption_items_blanks (hfront : IsBlanks front) :
    (items item levels steps done (front ++ rest)).toOption =
      (items item levels steps done rest).toOption := by
  cases steps with
  | zero => rfl
  | succ steps => rw [items, items, nextItem_blanks _ hfront]

/-- One item, and then the others. -/
theorem toOption_items_text {a? : Option α} (h : IsText depth bytes)
    (ha : Settles item depth bytes a?) (hfront : IsBlanks front) (hback : IsBlanks back)
    (hlevels : depth < levels) (hrest : EndsNumber rest) :
    (items item levels (steps + 1) done
      (separator done.isEmpty ++ (front ++ (bytes ++ back) ++ rest))).toOption =
        a?.bind fun a ↦ (items item levels steps (a :: done) rest).toOption := by
  obtain ⟨next, hnext⟩ := nextItem_text done.isEmpty hfront h
  have hread := ha levels [] (back ++ rest) hlevels .nil (hback.endsNumber hrest)
  rw [List.nil_append] at hread
  rw [List.append_assoc, List.append_assoc, items, hnext, ok_bind]
  simp only [toOption_bind, hread]
  cases a? with
  | none => rfl
  | some a => exact toOption_items_blanks hback

theorem items_close :
    items item levels (steps + 1) done (93 :: rest) = .ok (done.reverse, 93 :: rest) := by
  rw [items, nextItem_close, ok_bind]
  rfl

theorem items_separated (hitem : UniformAt depth item)
    (h : Separated (IsPadded (IsText depth)) inner) :
    ∃ as? : Option (List α), ∀ levels done steps rest, depth < levels → inner.length < steps →
      (items item levels steps done (separator done.isEmpty ++ (inner ++ 93 :: rest))).toOption =
        as?.map fun as ↦ (done.reverse ++ as, 93 :: rest) := by
  -- What the items are is settled part by part, before it is known which ones are done.
  induction h with
  | last h =>
    obtain ⟨front, u, back, hfront, hu, hback, rfl⟩ := h
    obtain ⟨a?, ha⟩ := hitem u hu
    obtain ⟨b, bs, hbs, -⟩ := hu.exists_cons
    refine ⟨a?.map ([·]), fun levels done steps rest hlevels hsteps ↦ ?_⟩
    obtain ⟨steps, rfl⟩ : ∃ k, steps = k + 1 + 1 := by
      simp only [hbs, List.length_append, List.length_cons] at hsteps
      exact ⟨steps - 2, by omega⟩
    rw [toOption_items_text hu ha hfront hback hlevels (endsNumber_cons rfl)]
    cases a? with
    | none => rfl
    | some a =>
      rw [Option.bind_some, items_close, List.reverse_cons]
      rfl
  | cons h _ ih =>
    obtain ⟨front, u, back, hfront, hu, hback, rfl⟩ := h
    obtain ⟨a?, ha⟩ := hitem u hu
    obtain ⟨as?, has⟩ := ih
    refine ⟨a?.bind fun a ↦ as?.map (a :: ·), fun levels done steps rest hlevels hsteps ↦ ?_⟩
    obtain ⟨steps, rfl⟩ : ∃ k, steps = k + 1 := ⟨steps - 1, by omega⟩
    simp only [List.length_append, List.length_cons] at hsteps
    rw [List.append_assoc _ (44 :: _), List.cons_append,
      toOption_items_text hu ha hfront hback hlevels (endsNumber_cons rfl)]
    cases a? with
    | none => rfl
    | some a =>
      refine (has levels (a :: done) steps rest hlevels (by omega)).trans ?_
      cases as? with
      | none => rfl
      | some as => simp

/-- Lists of values that are read alike everywhere are. -/
theorem uniformAt_list (hitem : ∀ d < depth, UniformAt d item) : UniformAt depth (list item) := by
  intro bytes hbytes
  have hother {b : UInt8} {bs : Bytes} (hblank : isBlank b = false) (hb : b ≠ 91) :
      ∃ as?, Settles (list item) depth (b :: bs) as? := by
    refine ⟨none, fun levels front rest _ hfront _ ↦ ?_⟩
    rw [list, List.cons_append, start_blanks hfront hblank, ok_bind]
    simp only [if_neg hb]
    rfl
  rcases hbytes.cases with hscalar | ⟨d, rfl, ⟨inner, hinner, rfl⟩ | ⟨inner, -, rfl⟩⟩
  · obtain ⟨b, bs, rfl, hb, hlist, -⟩ := hscalar.exists_cons
    exact hother hb.isBlank hlist
  · obtain ⟨as?, has⟩ : ∃ as? : Option (List α), ∀ levels rest, d < levels →
        (items item levels ((inner ++ 93 :: rest).length + 1) [] (inner ++ 93 :: rest)).toOption =
          as?.map (·, 93 :: rest) := by
      rcases hinner with hblanks | hparts
      · refine ⟨some [], fun levels rest _ ↦ ?_⟩
        rw [toOption_items_blanks hblanks, items_close]
        rfl
      · obtain ⟨as?, has⟩ := items_separated (hitem d (Nat.lt_succ_self d)) hparts
        refine ⟨as?, fun levels rest hlevels ↦ ?_⟩
        refine (has levels [] _ rest hlevels ?_).trans (by simp)
        rw [List.length_append]
        omega
    refine ⟨as?, fun levels front rest hlevels hfront _ ↦ ?_⟩
    rw [list, List.cons_append, List.append_assoc, start_blanks hfront rfl, ok_bind]
    simp only [if_true]
    rw [toOption_bracketed _ _ (by omega), List.singleton_append, has _ _ (by omega)]
    cases as? <;> rfl
  · exact hother rfl (by decide)

end Lists

/-! ## Objects -/

theorem nextKey_blanks (first : Bool) (hfront : IsBlanks front) :
    nextKey first (front ++ rest) = nextKey first rest := by
  rw [nextKey, hfront.skipBlanks]
  rfl

/-- The next key is a string without the blanks in front of it. -/
theorem nextKey_string (first : Bool) (hfront : IsBlanks front) :
    nextKey first (separator first ++ (front ++ 34 :: rest)) =
      string rest >>= fun (key, rest) ↦ .ok (some key, rest) := by
  have hclose : (34 : UInt8) ≠ 125 := by decide
  have hcomma : (44 : UInt8) ≠ 125 := by decide
  have hquote : isBlank 34 = false := rfl
  cases first with
  | true =>
    rw [separator, if_pos rfl, List.nil_append, nextKey, hfront.skipBlanks_cons hquote]
    simp only [if_neg hclose, if_true]
    rfl
  | false =>
    rw [separator, if_neg Bool.false_ne_true, List.singleton_append, nextKey, skipBlanks_cons rfl]
    simp only [if_neg hcomma, if_true, hfront.skipBlanks_cons hquote, Bool.false_eq_true, if_false]
    rfl

theorem colon_blanks (hfront : IsBlanks front) : colon (front ++ 58 :: rest) = .ok rest := by
  rw [colon, hfront.skipBlanks_cons rfl]
  rfl

section Objects

variable {members : List (Member Reader σ)} {other : String → Reader (σ → σ)} {steps : Nat}
  {first : Bool} {seen : List String} {s : σ}

theorem toOption_storeMembers_blanks (hfront : IsBlanks front) :
    (storeMembers members other levels steps first seen s (front ++ rest)).toOption =
      (storeMembers members other levels steps first seen s rest).toOption := by
  cases steps with
  | zero => rfl
  | succ steps => rw [storeMembers, storeMembers, nextKey_blanks _ hfront]

variable (hmembers : ∀ m ∈ members, UniformAt depth m.read)
  (hother : ∀ key, UniformAt depth (other key))
include hmembers hother

/-- One member is stored, and then the others. -/
theorem storeMembers_isMember (h : IsMember (IsText depth) bytes) (first : Bool)
    (seen : List String) (s : σ) : ∃ next? : Option (List String × σ), ∀ levels steps rest,
      depth < levels → EndsNumber rest →
        (storeMembers members other levels (steps + 1) first seen s
          (separator first ++ (bytes ++ rest))).toOption =
          next?.bind fun next ↦
            (storeMembers members other levels steps false next.1 next.2 rest).toOption := by
  obtain ⟨key, element, ⟨before, u, after, hbefore, ⟨contents, hcontents, rfl⟩, hafter, rfl⟩,
    ⟨front, v, back, hfront, hv, hback, rfl⟩, rfl⟩ := h
  have hbytes (rest : Bytes) : before ++ (34 :: (contents ++ [34]) ++ after) ++
      58 :: (front ++ (v ++ back)) ++ rest =
        before ++ 34 :: (contents ++ 34 :: (after ++ 58 :: (front ++ (v ++ (back ++ rest))))) := by
    simp only [List.append_assoc, List.cons_append, List.nil_append]
  obtain ⟨key?, hkey⟩ := scans_string hcontents
  simp only [hbytes, storeMembers, nextKey_string first hbefore, toOption_bind, hkey]
  cases key? with
  | none => exact ⟨none, fun _ _ _ _ _ ↦ rfl⟩
  | some key =>
    -- What is behind the colon is read by the member, or by what takes all others.
    have hread {read : Reader (σ → σ)} (h : UniformAt depth read) (seen' : List String) :
        ∃ next? : Option (List String × σ), ∀ levels steps rest, depth < levels →
          EndsNumber rest → (read levels (front ++ (v ++ (back ++ rest)))).toOption.bind
            (fun r ↦ (storeMembers members other levels steps false seen' (r.1 s) r.2).toOption) =
          next?.bind fun next ↦
            (storeMembers members other levels steps false next.1 next.2 rest).toOption := by
      obtain ⟨store?, hstore⟩ := h v hv
      refine ⟨store?.map fun store ↦ (seen', store s), fun levels steps rest hlevels hrest ↦ ?_⟩
      rw [hstore levels front (back ++ rest) hlevels hfront (hback.endsNumber hrest)]
      cases store? with
      | none => rfl
      | some store => exact toOption_storeMembers_blanks hback
    simp only [Option.map_some, Option.bind_some, toOption_ok]
    cases hfind : members.find? (·.name == key) with
    | none =>
      simp only [colon_blanks hafter, ok_bind, toOption_bind]
      exact hread (hother key) seen
    | some m =>
      by_cases hseen : seen.contains key = true
      · exact ⟨none, fun _ _ _ _ _ ↦ by simp only [if_pos hseen]; rfl⟩
      · simp only [if_neg hseen, colon_blanks hafter, ok_bind, toOption_bind]
        exact hread (hmembers m (List.mem_of_find?_eq_some hfind)) (key :: seen)

theorem storeMembers_separated (h : Separated (IsMember (IsText depth)) inner) (first : Bool)
    (seen : List String) (s : σ) : ∃ r? : Option (σ × List String), ∀ levels steps rest,
      depth < levels → inner.length < steps →
        (storeMembers members other levels steps first seen s
          (separator first ++ (inner ++ 125 :: rest))).toOption = r?.map (·, 125 :: rest) := by
  induction h generalizing first seen s with
  | @last part h =>
    obtain ⟨next?, hnext⟩ := storeMembers_isMember hmembers hother h first seen s
    refine ⟨next?.map fun next ↦ (next.2, next.1), fun levels steps rest hlevels hsteps ↦ ?_⟩
    -- A member has a colon at least, which leaves a step for the closing brace.
    have hlength : 0 < part.length := by
      obtain ⟨key, element, -, -, rfl⟩ := h
      rw [List.length_append, List.length_cons]
      omega
    obtain ⟨steps, rfl⟩ : ∃ k, steps = k + 1 + 1 := ⟨steps - 2, by omega⟩
    rw [hnext levels (steps + 1) _ hlevels (endsNumber_cons rfl)]
    cases next? with
    | none => rfl
    | some next =>
      rw [Option.bind_some, storeMembers_close]
      rfl
  | @cons part inner h _ ih =>
    obtain ⟨next?, hnext⟩ := storeMembers_isMember hmembers hother h first seen s
    have hstep (levels steps : Nat) (rest : Bytes) (hlevels : depth < levels) :
        (storeMembers members other levels (steps + 1) first seen s
          (separator first ++ (part ++ 44 :: inner ++ 125 :: rest))).toOption =
          next?.bind fun next ↦ (storeMembers members other levels steps false next.1 next.2
            (separator false ++ (inner ++ 125 :: rest))).toOption := by
      rw [List.append_assoc, List.cons_append, hnext levels steps _ hlevels (endsNumber_cons rfl)]
      rfl
    cases next? with
    | none =>
      refine ⟨none, fun levels steps rest hlevels hsteps ↦ ?_⟩
      obtain ⟨steps, rfl⟩ : ∃ k, steps = k + 1 := ⟨steps - 1, by omega⟩
      exact hstep levels steps rest hlevels
    | some next =>
      obtain ⟨r?, hr⟩ := ih false next.1 next.2
      refine ⟨r?, fun levels steps rest hlevels hsteps ↦ ?_⟩
      obtain ⟨steps, rfl⟩ : ∃ k, steps = k + 1 := ⟨steps - 1, by omega⟩
      rw [List.length_append, List.length_cons] at hsteps
      exact (hstep levels steps rest hlevels).trans (hr levels steps rest hlevels (by omega))

/-- An object is read alike everywhere, from behind its opening brace. -/
theorem bracketed_membersThen (h : IsBlanks inner ∨ Separated (IsMember (IsText depth)) inner)
    (blank : σ) (finish : σ → Except Problem α) : ∃ a? : Option α, ∀ levels rest,
      depth + 1 < levels →
        (bracketed closeObject (membersThen blank members other finish) levels 123
          (inner ++ 125 :: rest)).toOption = a?.map (·, rest) := by
  obtain ⟨r?, hr⟩ : ∃ r? : Option (σ × List String), ∀ levels rest, depth < levels →
      (storeMembers members other levels ((inner ++ 125 :: rest).length + 1) true [] blank
        (inner ++ 125 :: rest)).toOption = r?.map (·, 125 :: rest) := by
    rcases h with hblanks | hparts
    · refine ⟨some (blank, []), fun levels rest _ ↦ ?_⟩
      rw [toOption_storeMembers_blanks hblanks, storeMembers_close]
      rfl
    · obtain ⟨r?, hr⟩ := storeMembers_separated hmembers hother hparts true [] blank
      refine ⟨r?, fun levels rest hlevels ↦ hr levels _ rest hlevels ?_⟩
      rw [List.length_append]
      omega
  refine ⟨r?.bind fun r ↦ if (firstMissing? members r.2).isSome then none
    else (finish r.1).toOption, fun levels rest hlevels ↦ ?_⟩
  rw [toOption_bracketed _ _ (by omega), membersThen, toOption_bind, hr _ _ (by omega)]
  cases r? with
  | none => rfl
  | some r =>
    obtain ⟨s, seen⟩ := r
    simp only [Option.map_some, Option.bind_some]
    cases firstMissing? members seen with
    | some name => rfl
    | none =>
      dsimp only
      cases finish s <;> rfl

end Objects

/-! ## Records -/

/-- What is left of a record that is a list once its parts have been stored. -/
def closed (result : Except Fault (σ × Bytes)) : Option (σ × Bytes) :=
  result.toOption.bind fun r ↦ (closeList r.2).toOption.map (r.1, ·)

section Records

variable {members : List (Member Reader σ)} {label : String} {count : Nat}

theorem closed_storeItems_blanks {position : Nat} {first : Bool} {s : σ} (hfront : IsBlanks front) :
    closed (storeItems label count levels members position first s (front ++ rest)) =
      closed (storeItems label count levels members position first s rest) := by
  cases members with
  | nil =>
    rw [storeItems, storeItems, closed, closed, toOption_ok, toOption_ok, Option.bind_some,
      Option.bind_some, closeList_blanks hfront]
  | cons m members => rw [storeItems, storeItems, nextItem_blanks _ hfront]

/-- The parts for which no items are left. -/
theorem closed_storeItems_close (position : Nat) (first : Bool) (s : σ) : ∃ s? : Option σ,
    ∀ levels rest, closed (storeItems label count levels members position first s (93 :: rest)) =
      s?.map (·, rest) := by
  induction members generalizing position with
  | nil => exact ⟨some s, fun _ _ ↦ rfl⟩
  | cons m members ih =>
    simp only [storeItems, nextItem_close, ok_bind]
    by_cases hrequired : m.required = true
    · exact ⟨none, fun levels rest ↦ by simp only [if_pos hrequired]; rfl⟩
    · obtain ⟨s?, hs⟩ := ih (position + 1)
      exact ⟨s?, fun levels rest ↦ by simp only [if_neg hrequired]; exact hs levels rest⟩

/-- An item for which there is no part. -/
theorem closeList_text (hfront : IsBlanks front) (h : IsText depth bytes) (first : Bool) :
    (closeList (separator first ++ (front ++ (bytes ++ rest)))).toOption = none := by
  obtain ⟨b, bs, rfl, hb⟩ := h.exists_cons
  cases first with
  | true =>
    rw [separator, if_pos rfl, List.nil_append, closeList, List.cons_append,
      hfront.skipBlanks_cons hb.isBlank]
    simp only [if_neg hb.ne_bracket, if_neg hb.ne_comma]
    rfl
  | false =>
    have hcomma : (44 : UInt8) ≠ 93 := by decide
    rw [separator, if_neg Bool.false_ne_true, List.singleton_append, closeList, skipBlanks_cons rfl]
    simp only [if_neg hcomma, if_true]
    split <;> rfl

/-- One item is stored, and then the others. -/
theorem closed_storeItems_cons {m : Member Reader σ} (hm : UniformAt depth m.read)
    (h : IsPadded (IsText depth) bytes) : ∃ store? : Option (σ → σ),
      ∀ levels position first s rest, depth < levels → EndsNumber rest →
        closed (storeItems label count levels (m :: members) position first s
          (separator first ++ (bytes ++ rest))) =
          store?.bind fun store ↦
            closed (storeItems label count levels members (position + 1) false (store s) rest) := by
  obtain ⟨front, u, back, hfront, hu, hback, rfl⟩ := h
  obtain ⟨store?, hstore⟩ := hm u hu
  refine ⟨store?, fun levels position first s rest hlevels hrest ↦ ?_⟩
  obtain ⟨next, hnext⟩ := nextItem_text first hfront hu
  have hread := hstore levels [] (back ++ rest) hlevels .nil (hback.endsNumber hrest)
  rw [List.nil_append] at hread
  rw [List.append_assoc, List.append_assoc, storeItems, hnext, ok_bind, closed]
  simp only [toOption_bind, hread]
  cases store? with
  | none => rfl
  | some store => exact closed_storeItems_blanks hback

theorem closed_storeItems_separated (hmembers : ∀ m ∈ members, UniformAt depth m.read)
    (h : Separated (IsPadded (IsText depth)) inner) (position : Nat) (first : Bool) (s : σ) :
    ∃ s? : Option σ, ∀ levels rest, depth < levels →
      closed (storeItems label count levels members position first s
        (separator first ++ (inner ++ 93 :: rest))) = s?.map (·, rest) := by
  have hnone {part : Bytes} (hpart : IsPadded (IsText depth) part) (position : Nat) (first : Bool)
      (s : σ) (levels : Nat) (rest : Bytes) :
      closed (storeItems label count levels [] position first s
        (separator first ++ (part ++ rest))) = none := by
    obtain ⟨front, u, back, hfront, hu, -, rfl⟩ := hpart
    rw [storeItems, closed, toOption_ok, Option.bind_some, List.append_assoc, List.append_assoc,
      closeList_text hfront hu first]
    rfl
  -- Each item uses up a member, so the members change along with the items.
  induction h generalizing members position first s with
  | last hpart =>
    cases members with
    | nil => exact ⟨none, fun levels rest _ ↦ hnone hpart position first s levels _⟩
    | cons m members =>
      obtain ⟨store?, hstore⟩ := closed_storeItems_cons (hmembers m List.mem_cons_self) hpart
      cases store? with
      | none =>
        exact ⟨none, fun levels rest hlevels ↦
          hstore levels position first s _ hlevels (endsNumber_cons rfl)⟩
      | some store =>
        obtain ⟨s?, hs⟩ := closed_storeItems_close (position + 1) false (store s)
        exact ⟨s?, fun levels rest hlevels ↦
          (hstore levels position first s _ hlevels (endsNumber_cons rfl)).trans (hs levels rest)⟩
  | @cons part inner hpart _ ih =>
    have hbytes (rest : Bytes) : part ++ 44 :: inner ++ 93 :: rest =
        part ++ (separator false ++ (inner ++ 93 :: rest)) := List.append_assoc ..
    simp only [hbytes]
    cases members with
    | nil => exact ⟨none, fun levels rest _ ↦ hnone hpart position first s levels _⟩
    | cons m members =>
      obtain ⟨store?, hstore⟩ := closed_storeItems_cons (hmembers m List.mem_cons_self) hpart
      cases store? with
      | none =>
        exact ⟨none, fun levels rest hlevels ↦
          hstore levels position first s _ hlevels endsNumber_separator⟩
      | some store =>
        obtain ⟨s?, hs⟩ := ih (fun m hm ↦ hmembers m (List.mem_cons_of_mem _ hm)) (position + 1)
          false (store s)
        exact ⟨s?, fun levels rest hlevels ↦
          (hstore levels position first s _ hlevels endsNumber_separator).trans
            (hs levels rest hlevels)⟩

/-- Members that nobody asked for are passed over. -/
theorem uniformAt_ignored : UniformAt depth (ignored : Reader (σ → σ)) := by
  intro bytes hbytes
  refine ⟨some id, fun levels front rest _ hfront hrest ↦ ?_⟩
  rw [ignored, skipValue_text hbytes hfront hrest]
  rfl

theorem uniformAt_record (label : String) (blank : σ)
    (hmembers : ∀ m ∈ members, ∀ d < depth, UniformAt d m.read) :
    UniformAt depth (record label blank members) := by
  have hbrace : (123 : UInt8) ≠ 91 := by decide
  intro bytes hbytes
  rcases hbytes.cases with hscalar | ⟨d, rfl, ⟨inner, hinner, rfl⟩ | ⟨inner, hinner, rfl⟩⟩
  · obtain ⟨b, bs, rfl, hb, hlist, hobject⟩ := hscalar.exists_cons
    refine ⟨none, fun levels front rest _ hfront _ ↦ ?_⟩
    rw [record, List.cons_append, start_blanks hfront hb.isBlank, ok_bind]
    simp only [if_neg hlist, if_neg hobject]
    rfl
  · obtain ⟨s?, hs⟩ : ∃ s? : Option σ, ∀ levels rest, d < levels →
        closed (storeItems label members.length levels members 0 true blank
          (inner ++ 93 :: rest)) = s?.map (·, rest) := by
      rcases hinner with hblanks | hparts
      · obtain ⟨s?, hs⟩ := closed_storeItems_close 0 true blank
        exact ⟨s?, fun levels rest _ ↦ (closed_storeItems_blanks hblanks).trans (hs levels rest)⟩
      · exact closed_storeItems_separated (fun m hm ↦ hmembers m hm d (Nat.lt_succ_self d)) hparts
          0 true blank
    refine ⟨s?, fun levels front rest hlevels hfront _ ↦ ?_⟩
    rw [record, List.cons_append, List.append_assoc, start_blanks hfront rfl, ok_bind]
    simp only [if_true]
    rw [toOption_bracketed _ _ (by omega)]
    exact hs (levels - 1) rest (by omega)
  · obtain ⟨s?, hs⟩ := bracketed_membersThen (fun m hm ↦ hmembers m hm d (Nat.lt_succ_self d))
      (fun _ ↦ uniformAt_ignored) hinner blank .ok
    refine ⟨s?, fun levels front rest hlevels hfront _ ↦ ?_⟩
    rw [record, List.cons_append, List.append_assoc, start_blanks hfront rfl, ok_bind]
    simp only [if_neg hbrace, if_true]
    exact hs levels rest hlevels

end Records

/-! ## Values of any kind -/

theorem valueWithin_blanks {steps : Nat} (hfront : IsBlanks front) {b : UInt8}
    (hb : isBlank b = false) : valueWithin (steps + 1) levels (front ++ b :: rest) =
      valueWithin (steps + 1) levels (b :: rest) := by
  simp only [valueWithin, start_blanks hfront hb, start_cons hb]

/-- A number is told by its first byte. -/
theorem valueWithin_number {steps : Nat} {b : UInt8} (hb : b = 45 ∨ isDigit b = true) :
    valueWithin (steps + 1) levels (b :: rest) =
      signedNumber (b :: rest) >>= fun r ↦ .ok (.number r.1, r.2) := by
  rcases hb with rfl | hdigit
  · rfl
  · simp only [valueWithin, start_cons (isBlank_of_isDigit hdigit), ok_bind,
      if_neg (ne_of_isDigit hdigit (k := 110) rfl), if_neg (ne_of_isDigit hdigit (k := 116) rfl),
      if_neg (ne_of_isDigit hdigit (k := 102) rfl), if_neg (ne_of_isDigit hdigit (k := 45) rfl),
      if_pos hdigit, signedNumber]
    rfl

theorem toOption_valueWithin_word {steps : Nat} {b : UInt8} {w : Bytes} {v : Value}
    (hbranch : ∀ bytes, valueWithin (steps + 1) levels (b :: bytes) =
      word w bytes >>= fun rest ↦ .ok (v, rest)) (rest : Bytes) :
    (valueWithin (steps + 1) levels (b :: w ++ rest)).toOption = some (v, rest) := by
  rw [List.cons_append, hbranch, word_append]
  rfl

theorem settles_valueWithin_scalar {steps : Nat} (h : IsScalar bytes) :
    ∃ v?, Settles (valueWithin (steps + 1)) depth bytes v? := by
  obtain ⟨b, bs, hbytes, hb, -⟩ := h.exists_cons
  -- The blanks in front are the same matter for all of them.
  suffices hscan : ∃ v? : Option Value, ∀ levels rest, EndsNumber rest →
      (valueWithin (steps + 1) levels (bytes ++ rest)).toOption = v?.map (·, rest) by
    obtain ⟨v?, hv⟩ := hscan
    refine ⟨v?, fun levels front rest _ hfront hrest ↦ ?_⟩
    rw [← hv levels rest hrest, hbytes, List.cons_append, valueWithin_blanks hfront hb.isBlank]
  cases h with
  | null => exact ⟨some .null, fun levels rest _ ↦ toOption_valueWithin_word (fun _ ↦ rfl) rest⟩
  | true =>
    exact ⟨some (.boolean true), fun levels rest _ ↦ toOption_valueWithin_word (fun _ ↦ rfl) rest⟩
  | false =>
    exact ⟨some (.boolean false), fun levels rest _ ↦ toOption_valueWithin_word (fun _ ↦ rfl) rest⟩
  | number h =>
    obtain ⟨n?, hn⟩ := scans_signedNumber h
    obtain ⟨d, ds, rfl, hd⟩ := h.exists_cons
    refine ⟨n?.map .number, fun levels rest hrest ↦ ?_⟩
    rw [List.cons_append, valueWithin_number hd, toOption_bind, ← List.cons_append, hn rest hrest]
    cases n? <;> rfl
  | string h =>
    obtain ⟨contents, hcontents, rfl⟩ := h
    obtain ⟨s?, hs⟩ := scans_string hcontents
    refine ⟨s?.map .string, fun levels rest _ ↦ ?_⟩
    have hbranch (bytes : Bytes) : valueWithin (steps + 1) levels (34 :: bytes) =
        string bytes >>= fun r ↦ .ok (.string r.1, r.2) := rfl
    rw [List.cons_append, List.append_assoc, hbranch, toOption_bind, List.singleton_append, hs rest]
    cases s? <;> rfl

/-- A value is buffered alike everywhere, if there are steps enough for its depth. -/
theorem uniformAt_valueWithin {steps : Nat} (h : depth < steps) :
    UniformAt depth (valueWithin steps) := by
  induction steps generalizing depth with
  | zero => exact absurd h (Nat.not_lt_zero _)
  | succ steps ih =>
    intro bytes hbytes
    rcases hbytes.cases with hscalar | ⟨d, rfl, ⟨inner, -, rfl⟩ | ⟨inner, hinner, rfl⟩⟩
    · exact settles_valueWithin_scalar hscalar
    · have hitem : ∀ d' < d + 1, UniformAt d' (valueWithin steps) := fun d' hd' ↦ ih (by omega)
      obtain ⟨as?, has⟩ := uniformAt_list hitem _ hbytes
      refine ⟨as?.map .array, fun levels front rest hlevels hfront hrest ↦ ?_⟩
      have hbranch (bytes : Bytes) : valueWithin (steps + 1) levels (91 :: bytes) =
          list (valueWithin steps) levels (91 :: bytes) >>= fun r ↦ .ok (.array r.1, r.2) := rfl
      have hlist := has levels [] rest hlevels .nil hrest
      rw [List.nil_append, List.cons_append] at hlist
      rw [List.cons_append, valueWithin_blanks hfront rfl, hbranch, toOption_bind, hlist]
      cases as? <;> rfl
    · have hkeep (key : String) : UniformAt d (keepValue (valueWithin steps) key) :=
        uniformAt_map _ (ih (by omega))
      have hnone : ∀ m ∈ ([] : List (Member Reader (List (String × Value)))), UniformAt d m.read :=
        fun m hm ↦ absurd hm List.not_mem_nil
      obtain ⟨ms?, hms⟩ := bracketed_membersThen hnone hkeep hinner [] .ok
      refine ⟨ms?.map fun members ↦ .object members.reverse,
        fun levels front rest hlevels hfront _ ↦ ?_⟩
      have hbranch (bytes : Bytes) : valueWithin (steps + 1) levels (123 :: bytes) =
          bracketed closeObject (membersThen [] [] (keepValue (valueWithin steps)) .ok) levels 123
            bytes >>= fun r ↦ .ok (.object r.1.reverse, r.2) := rfl
      rw [List.cons_append, List.append_assoc, valueWithin_blanks hfront rfl, hbranch,
        toOption_bind, List.singleton_append, hms levels rest hlevels]
      cases ms? <;> rfl

/-- An object of which only some members are known. -/
theorem uniformAt_gathered {members : List (Member Reader σ)} (label : String) (blank : σ)
    (finish : σ → List (String × Value) → Except Problem α) (hdepth : depth ≤ maxLevels)
    (hmembers : ∀ m ∈ members, ∀ d < depth, UniformAt d m.read) :
    UniformAt depth (gathered label blank members finish) := by
  intro bytes hbytes
  have hother {b : UInt8} {bs : Bytes} (hblank : isBlank b = false) (hb : b ≠ 123) :
      ∃ a?, Settles (gathered label blank members finish) depth (b :: bs) a? := by
    refine ⟨none, fun levels front rest _ hfront _ ↦ ?_⟩
    rw [gathered, List.cons_append, start_blanks hfront hblank, ok_bind]
    simp only [if_neg hb]
    rfl
  rcases hbytes.cases with hscalar | ⟨d, rfl, ⟨inner, -, rfl⟩ | ⟨inner, hinner, rfl⟩⟩
  · obtain ⟨b, bs, rfl, hb, -, hobject⟩ := hscalar.exists_cons
    exact hother hb.isBlank hobject
  · exact hother rfl (by decide)
  · have hlifted : ∀ m ∈ members.map lifted, UniformAt d m.read := by
      intro m' hm'
      obtain ⟨m, hm, rfl⟩ := List.mem_map.mp hm'
      exact uniformAt_map (fun store (s : σ × List (String × Value)) ↦ (store s.1, s.2))
        (hmembers m hm d (Nat.lt_succ_self d))
    have hkeep (key : String) :
        UniformAt d (keep key : Reader (σ × List (String × Value) → σ × List (String × Value))) :=
      uniformAt_map (fun v (s : σ × List (String × Value)) ↦ (s.1, (key, v) :: s.2))
        (uniformAt_valueWithin hdepth)
    obtain ⟨a?, ha⟩ := bracketed_membersThen hlifted hkeep hinner (blank, [])
      fun s ↦ finish s.1 s.2.reverse
    refine ⟨a?, fun levels front rest hlevels hfront _ ↦ ?_⟩
    rw [gathered, List.cons_append, List.append_assoc, start_blanks hfront rfl, ok_bind]
    simp only [if_true]
    exact ha levels rest hlevels

end ScriptWasm.Json.Reader
