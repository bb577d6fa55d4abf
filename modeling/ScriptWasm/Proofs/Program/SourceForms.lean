import ScriptWasm.Program.Parse
import ScriptWasm.Proofs.Json.Uniform

/-!
# The two forms of a source

A source can be a bare list of statements, or an object with such a list as its body. Which of the
two it is meant to be is decided by its first character, and the two are read by different readers.
But the statements of both are read by the same reader, which is uniform; so putting a list into an
object changes nothing, except for the place of what is wrong with it.

The object is a level more, so a list may use all but two of the levels of a text.
-/

namespace ScriptWasm

open Json Reader

/-! ## The first character -/

/-- A byte of ASCII at the start of a text is its first character. -/
theorem eq_of_utf8EncodeChar_append {c : Char} {b : UInt8} {bytes rest : Bytes} (hb : b.toNat ≤ 127)
    (h : String.utf8EncodeChar c ++ rest = b :: bytes) : c.toNat = b.toNat ∧ rest = bytes := by
  by_cases hascii : c.toNat ≤ 127
  · rw [utf8EncodeChar_of_ascii hascii] at h
    obtain ⟨rfl, rfl⟩ := List.cons.inj h
    exact ⟨(UInt8.toNat_ofNat_of_lt' (Nat.lt_of_le_of_lt hascii (by decide))).symm, rfl⟩
  · -- Any other character would start with a byte that is no character itself.
    have hne : String.utf8EncodeChar c ≠ [] := fun hnil ↦ by
      have hlength := String.length_utf8EncodeChar c
      rw [hnil] at hlength
      exact absurd hlength.symm (Nat.ne_of_gt c.utf8Size_pos)
    obtain ⟨b', bs, hbytes⟩ := List.exists_cons_of_ne_nil hne
    rw [hbytes, List.cons_append] at h
    have hle := le_of_mem_utf8EncodeChar (Nat.lt_of_not_le hascii) (hbytes ▸ List.mem_cons_self)
    rw [(List.cons.inj h).1] at hle
    omega

theorem head?_dropWhile_blank {cs : List Char} {front rest : Bytes} (hfront : IsBlanks front)
    (h : cs.flatMap String.utf8EncodeChar = front ++ 91 :: rest) :
    (cs.dropWhile CodePoints.blank.contains).head? = some '[' := by
  induction front generalizing cs with
  | nil =>
    cases cs with
    | nil => cases h
    | cons c cs =>
      rw [List.flatMap_cons] at h
      obtain rfl : c = '[' :=
        Char.toNat_inj.mp (eq_of_utf8EncodeChar_append (b := 91) (by decide) h).1
      have hblank : CodePoints.blank.contains '[' = false := by decide
      rw [List.dropWhile_cons, hblank]
      rfl
  | cons b front ih =>
    have hb : b = 32 ∨ b = 10 ∨ b = 9 ∨ b = 13 := by
      simpa [isBlank, or_assoc] using hfront b List.mem_cons_self
    cases cs with
    | nil => cases h
    | cons c cs =>
      rw [List.flatMap_cons, List.cons_append] at h
      have hascii : b.toNat ≤ 127 := by rcases hb with rfl | rfl | rfl | rfl <;> decide
      obtain ⟨hc, hcs⟩ := eq_of_utf8EncodeChar_append hascii h
      have hblank : CodePoints.blank.contains c = true := by
        rw [CodePoints.contains, hc]
        rcases hb with rfl | rfl | rfl | rfl <;> decide
      rw [List.dropWhile_cons, hblank]
      exact ih (fun b hb ↦ hfront b (List.mem_cons_of_mem _ hb)) hcs

theorem Program.isBareList_of_bytes {text : String} {front rest : Bytes} (hfront : IsBlanks front)
    (h : bytesOf text = front ++ 91 :: rest) : isBareList text = true := by
  rw [bytesOf_eq_flatMap] at h
  rw [isBareList, Text.dropBlanks, head?_dropWhile_blank hfront h]
  rfl

/-! ## Statements -/

theorem Span.uniformAt_form {depth : Nat} : UniformAt depth (Span.form : Reader Span) := by
  refine uniformAt_record _ _ fun m hm d _ ↦ ?_
  simp only [Span.members, List.mem_cons, List.not_mem_nil, or_false] at hm
  rcases hm with rfl | rfl | rfl | rfl <;> exact uniformAt_map _ (uniformAt_numeric _ _)

theorem Stmt.uniformAt_form {depth : Nat} (hdepth : depth ≤ maxLevels) :
    UniformAt depth (Stmt.form : Reader Stmt) := by
  refine uniformAt_gathered _ _ _ hdepth fun m hm d _ ↦ ?_
  obtain rfl := List.mem_singleton.mp hm
  exact uniformAt_map _ Span.uniformAt_form

namespace Program

theorem uniformAt_bodyForm {depth : Nat} (hdepth : depth ≤ maxLevels) :
    UniformAt depth (bodyForm : Reader (List Stmt)) :=
  uniformAt_list fun _ hd ↦ Stmt.uniformAt_form (Nat.le_trans (Nat.le_of_lt hd) hdepth)

/-! ## Whole texts -/

theorem toOption_run {α : Type} (form : Reader α) {bytes back : Bytes} {a? : Option α}
    (hread : (form maxLevels bytes).toOption = a?.map (·, back)) (hback : IsBlanks back) :
    (run form bytes).toOption = a? := by
  have hend : skipBlanks back = [] := by
    have := hback.skipBlanks []
    rwa [List.append_nil] at this
  rw [run, toOption_bind, hread]
  cases a? with
  | none => rfl
  | some a =>
    simp only [Option.map_some, Option.bind_some, hend]
    rfl

end Program

/-- The source as an object with nothing but a body. -/
def SourceText.asObject (source : SourceText) : SourceText :=
  { source with text := "\x7b\"body\": " ++ source.text ++ "\x7d" }

theorem SourceText.bytesOf_asObject (source : SourceText) :
    bytesOf source.asObject.text =
      123 :: 34 :: ([98, 111, 100, 121] ++ 34 :: 58 :: 32 :: (bytesOf source.text ++ [125])) := by
  have hopen : bytesOf "\x7b\"body\": " = [123, 34, 98, 111, 100, 121, 34, 58, 32] :=
    bytesOf_ofList ['\x7b', '"', 'b', 'o', 'd', 'y', '"', ':', ' ']
  rw [asObject, bytesOf_append, bytesOf_append, hopen, bytesOf_braces.2]
  rfl

namespace Program

theorem isBareList_asObject (source : SourceText) : isBareList source.asObject.text = false := by
  have hblank : CodePoints.blank.contains '\x7b' = false := by decide
  obtain ⟨rest, htext⟩ : ∃ rest, source.asObject.text.toList = '\x7b' :: rest := by
    rw [SourceText.asObject, String.toList_append, String.toList_append]
    exact ⟨_, rfl⟩
  rw [isBareList, Text.dropBlanks, htext, List.dropWhile_cons, hblank]
  rfl

/-- The key of the body. -/
theorem nextKey_body (rest : Bytes) :
    nextKey true (34 :: ([98, 111, 100, 121] ++ 34 :: rest)) = .ok (some "body", rest) := by
  have hkey : string ([98, 111, 100, 121] ++ 34 :: rest) = .ok ("body", rest) :=
    string_escaped "body" rest
  exact (nextKey_string true .nil).trans (congrArg (· >>= _) hkey)

/-- The parts of a source that is an object. -/
def declaredMembers : List (Member Reader Declared) :=
  [.defaulted "variables" (Source.optional (Source.list Source.text))
      fun names p ↦ { p with names? := names },
    .needed "body" bodyForm fun b p ↦ { p with body := b }]

section Forms

variable {source : SourceText} {depth : Nat} {front bytes back : Bytes} {body? : Option (List Stmt)}
  (htext : bytesOf source.text = front ++ (bytes ++ back)) (hfront : IsBlanks front)
  (hback : IsBlanks back) (hbody : Settles bodyForm depth bytes body?)
include htext hfront hback hbody

theorem toOption_read_bodyForm (hdepth : depth < maxLevels) :
    (Json.read bodyForm source.text).toOption = body? := by
  have hnil : EndsNumber [] := fun b hb ↦ absurd hb (Option.not_mem_none b)
  have hends : EndsNumber back := List.append_nil back ▸ hback.endsNumber hnil
  have hread := hbody maxLevels front back hdepth hfront hends
  rw [Json.read, htext]
  exact toOption_run bodyForm hread hback

theorem toOption_read_declaredForm (hdepth : depth + 1 < maxLevels) :
    (Json.read declaredForm source.asObject.text).toOption = body?.map (⟨none, ·⟩) := by
  have hspace : IsBlanks (32 :: front) := by
    intro b hb
    rcases List.mem_cons.mp hb with rfl | hb
    · rfl
    · exact hfront b hb
  have hread := hbody (maxLevels - 1) (32 :: front) (back ++ [125]) (by omega) hspace
    (hback.endsNumber (endsNumber_cons rfl))
  have hbytes : 32 :: (bytesOf source.text ++ [125]) =
      32 :: front ++ (bytes ++ (back ++ [125])) := by
    simp only [htext, List.append_assoc, List.cons_append]
  have hfind : declaredMembers.find? (·.name == "body") =
      some (.needed "body" bodyForm fun b p ↦ { p with body := b }) := by
    simp [declaredMembers, Member.defaulted, Member.needed]
  -- The body is the only member, and the only one that is required.
  have hstore (steps : Nat) : (storeMembers declaredMembers (fun _ ↦ ignored) (maxLevels - 1)
      (steps + 1 + 1) true [] ⟨none, []⟩ (34 :: ([98, 111, 100, 121] ++
        34 :: 58 :: 32 :: (bytesOf source.text ++ [125])))).toOption =
      body?.map fun body ↦ ((⟨none, body⟩, ["body"]), [125]) := by
    rw [storeMembers, nextKey_body, ok_bind]
    simp only [hfind, List.contains_nil, Bool.false_eq_true, if_false, colon_cons, ok_bind,
      Member.needed]
    have hmap (rest : Bytes) :
        (Source.map (fun b (p : Declared) ↦ { p with body := b }) bodyForm : Reader _)
            (maxLevels - 1) rest =
          (bodyForm : Reader (List Stmt)) (maxLevels - 1) rest >>=
            fun r ↦ .ok (fun p ↦ { p with body := r.1 }, r.2) := rfl
    rw [hmap, hbytes, toOption_bind, toOption_bind, hread]
    cases body? with
    | none => rfl
    | some body =>
      simp only [Option.map_some, Option.bind_some, toOption_ok, toOption_storeMembers_blanks hback,
        storeMembers_close]
  have hopen (rest : Bytes) : (declaredForm : Reader Declared) maxLevels (123 :: rest) =
      bracketed closeObject (membersThen ⟨none, []⟩ declaredMembers (fun _ ↦ ignored) .ok) maxLevels
        123 rest := rfl
  have hmissing : firstMissing? declaredMembers ["body"] = none := by
    simp [firstMissing?, declaredMembers, Member.defaulted, Member.needed]
  rw [Json.read, SourceText.bytesOf_asObject]
  refine toOption_run declaredForm ?_ .nil
  rw [hopen, toOption_bracketed _ _ (by decide), membersThen, toOption_bind]
  rw [List.length_cons, hstore]
  cases body? with
  | none => rfl
  | some body =>
    simp only [Option.map_some, Option.bind_some, hmissing]
    rfl

end Forms

/-! ## Programs -/

variable {source : SourceText}

theorem toOption_readSource (h : isBareList source.text = true) :
    (readSource source.text).toOption =
      (Json.read bodyForm source.text).toOption.map (⟨none, ·⟩) := by
  rw [readSource, if_pos h]
  cases Json.read bodyForm source.text <;> rfl

theorem parse_of_body {body : List Stmt}
    (h : (readSource source.text).toOption = some ⟨none, body⟩) :
    parse source = (some (.ofBody body), []) := by
  rw [parse]
  cases hread : readSource source.text with
  | error f =>
    rw [hread] at h
    cases h
  | ok declared =>
    rw [hread] at h
    obtain rfl : declared = ⟨none, body⟩ := Option.some.inj h
    rfl

theorem parse_of_none (h : (readSource source.text).toOption = none) :
    ∃ d, parse source = (none, [d]) ∧ d.code = 100 := by
  rw [parse]
  cases hread : readSource source.text with
  | error f => exact ⟨malformed source f, rfl, rfl⟩
  | ok declared =>
    rw [hread] at h
    cases h

/-- **The two forms of a source are interchangeable.** A list of statements that nests at most 126
levels deep can be the source itself, or the body of an object: either both are the same program,
with the variables that its body assigns and nothing to complain about, or neither is a program and
one diagnostic says that the text is malformed. -/
theorem parse_asObject (source : SourceText) {depth : Nat} (hdepth : depth + 1 ≤ 126)
    (h : IsPadded (IsArray (IsText depth)) (bytesOf source.text)) :
    (∃ body, parse source = (some ⟨.collect body, body⟩, []) ∧
      parse source.asObject = parse source) ∨
    ∃ d d', parse source = (none, [d]) ∧ parse source.asObject = (none, [d']) ∧
      d.code = 100 ∧ d'.code = 100 := by
  obtain ⟨front, bytes, back, hfront, hlist, hback, htext⟩ := h
  have hlevels : depth + 1 + 1 < maxLevels :=
    Nat.lt_of_le_of_lt (Nat.succ_le_succ hdepth) (by decide)
  have hnested : IsText (depth + 1) bytes := .inr (.inl hlist)
  -- What the statements are is settled here, before it matters which of the forms they are in.
  obtain ⟨body?, hbody⟩ := uniformAt_bodyForm (by omega) bytes hnested
  have hbare : isBareList source.text = true := by
    obtain ⟨inner, -, rfl⟩ := hlist
    exact isBareList_of_bytes hfront htext
  have hlistForm : (readSource source.text).toOption = body?.map (⟨none, ·⟩) := by
    rw [toOption_readSource hbare, toOption_read_bodyForm htext hfront hback hbody (by omega)]
  have hobjectForm : (readSource source.asObject.text).toOption = body?.map (⟨none, ·⟩) := by
    rw [readSource, isBareList_asObject, if_neg Bool.false_ne_true]
    exact toOption_read_declaredForm htext hfront hback hbody hlevels
  cases body? with
  | some body =>
    have hparse := parse_of_body hlistForm
    exact .inl ⟨body, hparse, (parse_of_body hobjectForm).trans hparse.symm⟩
  | none =>
    obtain ⟨d, hd, hcode⟩ := parse_of_none hlistForm
    obtain ⟨d', hd', hcode'⟩ := parse_of_none hobjectForm
    exact .inr ⟨d, d', hd, hd', hcode, hcode'⟩

/-- Lists inside of lists. -/
def brackets (n : Nat) : Bytes := List.replicate n 91 ++ List.replicate n 93

theorem isText_brackets (n : Nat) : IsText (n + 1) (brackets (n + 1)) := by
  induction n with
  | zero => exact .inr (.inl ⟨[], .inl .nil, rfl⟩)
  | succ n ih =>
    have hbytes : brackets (n + 2) = 91 :: (brackets (n + 1) ++ [93]) := by
      rw [brackets, List.replicate_succ, List.replicate_succ' (n := n + 1) (a := (93 : UInt8)),
        brackets, List.append_assoc]
      rfl
    exact .inr (.inl ⟨_, .inr (.last (.of ih)), hbytes⟩)

/-- A statement with a member that nothing asks for and that nests as deep as it may. -/
def deepSource : SourceText :=
  ⟨"deep", String.ofList (" [\x7b\"stmt\" :\"empty\",\"x\":".toList ++
    List.replicate 124 '[' ++ List.replicate 124 ']' ++ "\x7d]\n".toList)⟩

/-- A statement whose span has a line that is no word. -/
def farSource : SourceText := ⟨"far", "[\x7b\"stmt\":\"empty\",\"span\":[4294967296]\x7d]"⟩

/-- The kind of an empty statement, with blanks behind the key. -/
theorem isMember_kind {depth : Nat} (blanks : Bytes) (h : IsBlanks blanks) :
    IsMember (IsText depth)
      ([34, 115, 116, 109, 116, 34] ++ blanks ++ [58, 34, 101, 109, 112, 116, 121, 34]) := by
  have hkey : IsString [34, 115, 116, 109, 116, 34] :=
    isString_of_plain [115, 116, 109, 116] (by decide)
  have hkind : IsScalar [34, 101, 109, 112, 116, 121, 34] :=
    .string (isString_of_plain [101, 109, 112, 116, 121] (by decide))
  refine ⟨_, _, ⟨[], _, blanks, .nil, hkey, h, rfl⟩, .of ?_, rfl⟩
  cases depth with
  | zero => exact hkind
  | succ depth => exact .inl hkind

theorem bytesOf_deepSource : bytesOf deepSource.text =
    [32, 91, 123, 34, 115, 116, 109, 116, 34, 32, 58, 34, 101, 109, 112, 116, 121, 34, 44, 34, 120,
      34, 58] ++ brackets 124 ++ [125, 93, 10] := by
  rw [deepSource, bytesOf_ofList]
  decide +kernel

theorem isPadded_deepSource : IsPadded (IsArray (IsText 125)) (bytesOf deepSource.text) := by
  have hkey : IsString [34, 120, 34] := isString_of_plain [120] (by decide)
  have hdeep : IsMember (IsText 124) ([34, 120, 34] ++ 58 :: brackets 124) :=
    ⟨_, _, .of hkey, .of (isText_brackets 123), rfl⟩
  have hobject : IsText 125 _ :=
    .inr (.inr ⟨_, .inr (.cons (isMember_kind [32] (by decide)) (.last hdeep)), rfl⟩)
  refine ⟨[32], _, [10], by decide, ⟨_, .inr (.last (.of hobject)), rfl⟩, by decide, ?_⟩
  rw [bytesOf_deepSource]
  simp only [List.append_assoc, List.cons_append, List.nil_append]

theorem isPadded_farSource : IsPadded (IsArray (IsText 125)) (bytesOf farSource.text) := by
  have hbytes : bytesOf farSource.text =
      [91, 123, 34, 115, 116, 109, 116, 34, 58, 34, 101, 109, 112, 116, 121, 34, 44, 34, 115, 112,
        97, 110, 34, 58, 91, 52, 50, 57, 52, 57, 54, 55, 50, 57, 54, 93, 125, 93] := by
    decide +kernel
  have hkey : IsString [34, 115, 112, 97, 110, 34] :=
    isString_of_plain [115, 112, 97, 110] (by decide)
  have hline : IsNumber [52, 50, 57, 52, 57, 54, 55, 50, 57, 54] :=
    ⟨[52, 50, 57, 52, 57, 54, 55, 50, 57, 54],
      ⟨[52, 50, 57, 52, 57, 54, 55, 50, 57, 54], [], [],
        .inr ⟨52, [50, 57, 52, 57, 54, 55, 50, 57, 54], rfl, by decide, List.all_eq_true.mp rfl,
          rfl⟩, .inl rfl, .inl rfl, rfl⟩, .inl rfl⟩
  have hspan : IsText 124 (91 :: ([52, 50, 57, 52, 57, 54, 55, 50, 57, 54] ++ [93])) :=
    .inr (.inl ⟨_, .inr (.last (.of (.inl (.number hline)))), rfl⟩)
  have hmember : IsMember (IsText 124) ([34, 115, 112, 97, 110, 34] ++ 58 :: _) :=
    ⟨_, _, .of hkey, .of hspan, rfl⟩
  have hobject : IsText 125 _ :=
    .inr (.inr ⟨_, .inr (.cons (isMember_kind [] .nil) (.last hmember)), rfl⟩)
  rw [hbytes]
  exact .of ⟨_, .inr (.last (.of hobject)), rfl⟩

theorem parse_deepSource_asObject :
    (125 + 1 ≤ 126 ∧ IsPadded (IsArray (IsText 125)) (bytesOf deepSource.text)) ∧
    (∃ body, parse deepSource = (some ⟨.collect body, body⟩, []) ∧
      parse deepSource.asObject = parse deepSource) ∧
    IsPadded (IsArray (IsText 125)) (bytesOf farSource.text) ∧
    ∃ d d', parse farSource = (none, [d]) ∧ parse farSource.asObject = (none, [d']) ∧
      d.code = 100 ∧ d'.code = 100 := by
  have hdeep := isPadded_deepSource
  have hfar := isPadded_farSource
  have hblank : IsBlanks [32] := by decide
  have hbare : isBareList deepSource.text = true := isBareList_of_bytes hblank bytesOf_deepSource
  have hread : (Json.read bodyForm deepSource.text).toOption.isSome = true := by
    rw [Json.read, bytesOf_deepSource]
    decide +kernel
  have hrefused : (readSource farSource.text).toOption = none := by decide +kernel
  refine ⟨⟨by decide, hdeep⟩, ?_, hfar, ?_⟩
  · refine (parse_asObject deepSource (by decide) hdeep).resolve_right ?_
    rintro ⟨d, d', hparse, -⟩
    obtain ⟨body, hbody⟩ := Option.isSome_iff_exists.mp hread
    have hlist := toOption_readSource hbare
    rw [hbody] at hlist
    rw [parse_of_body hlist] at hparse
    cases hparse
  · refine (parse_asObject farSource (by decide) hfar).resolve_left ?_
    rintro ⟨body, hparse, -⟩
    obtain ⟨d, hd, -⟩ := parse_of_none hrefused
    rw [hd] at hparse
    cases hparse

end Program

end ScriptWasm
