import ScriptWasm.Proofs.Text.Pieces
import ScriptWasm.Source.Text
import Mathlib.Data.List.DropRight

/-!
# Lines of a source text

A line is cut out of the text between offsets that are counted in bytes, and a cut in the middle of
a character, behind the end or against the order is none. Here the offsets are tied to the pieces
between newlines: a piece starts behind the pieces and newlines in front of it and ends behind its
own bytes, so every line that there is can be cut out, and what comes out is the piece.
-/

namespace ScriptWasm

namespace Text

/-! ## Cutting -/

/-- Offsets between which a part of a text stands: in order, inside of the text, and neither of them
in the middle of a character. -/
structure IsCut (s : String) (start stop : Nat) : Prop where
  start_le_stop : start ≤ stop
  stop_le_size : stop ≤ s.utf8ByteSize
  start_isValid : String.Pos.Raw.IsValid s ⟨start⟩
  stop_isValid : String.Pos.Raw.IsValid s ⟨stop⟩

section Append

variable (front piece back : String)

theorem isValid_append_left :
    String.Pos.Raw.IsValid (front ++ back) ⟨front.utf8ByteSize⟩ :=
  String.Pos.Raw.isValid_iff_exists_append.mpr ⟨front, back, rfl, rfl⟩

/-- A part of a text stands behind what is in front of it. -/
theorem isCut_append :
    IsCut (front ++ piece ++ back) front.utf8ByteSize
      (front.utf8ByteSize + piece.utf8ByteSize) where
  start_le_stop := Nat.le_add_right _ _
  stop_le_size := by
    rw [String.utf8ByteSize_append, String.utf8ByteSize_append]
    exact Nat.le_add_right _ _
  start_isValid := by
    rw [String.append_assoc]
    exact isValid_append_left front (piece ++ back)
  stop_isValid := by
    rw [← String.utf8ByteSize_append]
    exact isValid_append_left (front ++ piece) back

theorem slice?_append :
    slice? (front ++ piece ++ back) front.utf8ByteSize
      (front.utf8ByteSize + piece.utf8ByteSize) = some piece := by
  have hcut := isCut_append front piece back
  rw [slice?, dif_pos ⟨hcut.start_le_stop, hcut.start_isValid, hcut.stop_isValid⟩, Option.some_inj,
    ← String.toByteArray_inj, String.toByteArray_extract, String.offset_pos, String.offset_pos]
  -- the bytes of a text that is put together are those of its parts, one behind the other
  rw [String.append_assoc, String.toByteArray_append, String.toByteArray_append]
  have hfront : front.utf8ByteSize = front.toByteArray.size := String.size_toByteArray.symm
  have hpiece : piece.utf8ByteSize = piece.toByteArray.size := String.size_toByteArray.symm
  rw [hfront, hpiece, ← Nat.add_zero front.toByteArray.size, Nat.add_assoc,
    ByteArray.extract_append_size_add, Nat.zero_add, ByteArray.extract_append_size_left,
    ByteArray.extract_zero_size]

end Append

/-! ## Pieces one behind the other -/

/-- The offsets at which pieces start that stand one behind the other with a byte between them, the
first of them at the offset `start`. -/
def startsFrom (start : Nat) : List String → List Nat
  | [] => []
  | piece :: pieces => start :: startsFrom (start + piece.utf8ByteSize + 1) pieces

@[simp] theorem startsFrom_cons (start : Nat) (piece : String) (pieces : List String) :
    startsFrom start (piece :: pieces) =
      start :: startsFrom (start + piece.utf8ByteSize + 1) pieces := rfl

@[simp] theorem length_startsFrom (start : Nat) (pieces : List String) :
    (startsFrom start pieces).length = pieces.length := by
  induction pieces generalizing start with
  | nil => rfl
  | cons piece pieces ih => rw [startsFrom_cons, List.length_cons, List.length_cons, ih]

/-- A piece starts behind everything in front of it, and the next one starts a byte behind its
end. -/
theorem exists_intercalate_eq_append {pieces : List String} {i : Nat} {piece : String}
    (h : pieces[i]? = some piece) (start : Nat) :
    ∃ front back, "\n".intercalate pieces = front ++ piece ++ back ∧
      (startsFrom start pieces)[i]? = some (start + front.utf8ByteSize) ∧
      ((startsFrom start pieces)[i + 1]?.map (· - 1)).getD
          (start + ("\n".intercalate pieces).utf8ByteSize) =
        start + front.utf8ByteSize + piece.utf8ByteSize := by
  -- `start` is free, since what is behind the first piece starts where that one and a newline end
  induction pieces generalizing i start with
  | nil => cases h
  | cons first rest ih =>
    cases i with
    | zero =>
      obtain rfl : first = piece := Option.some.inj h
      cases rest with
      | nil => refine ⟨"", "", ?_, ?_, ?_⟩ <;> simp [startsFrom]
      | cons second rest =>
        refine ⟨"", "\n" ++ "\n".intercalate (second :: rest), ?_, ?_, ?_⟩
        · rw [String.intercalate_cons_cons, String.empty_append, String.append_assoc]
        · rfl
        · simp
    | succ i =>
      have hrest : rest[i]? = some piece := h
      have hne : rest ≠ [] := by
        rintro rfl
        cases hrest
      obtain ⟨front, back, htext, hstart, hstop⟩ := ih hrest (start + first.utf8ByteSize + 1)
      have hsize : "\n".utf8ByteSize = 1 := rfl
      refine ⟨first ++ "\n" ++ front, back, ?_, ?_, ?_⟩
      · rw [String.intercalate_cons_of_ne_nil hne, htext]
        simp only [String.append_assoc]
      · rw [startsFrom_cons, List.getElem?_cons_succ, hstart]
        simp only [String.utf8ByteSize_append, hsize, Option.some_inj]
        omega
      · rw [String.intercalate_cons_of_ne_nil hne, startsFrom_cons, List.getElem?_cons_succ]
        simp only [String.utf8ByteSize_append, hsize] at hstop ⊢
        rw [← Nat.add_assoc, ← Nat.add_assoc, hstop]
        omega

/-- Behind every newline starts a piece. -/
theorem cons_offsetsFrom_newline (start : Nat) (cs : List Char) :
    start :: (offsetsFrom '\n' start cs).map (· + 1) =
      startsFrom start ((cs.splitOn '\n').map String.ofList) := by
  induction cs generalizing start with
  | nil => simp [offsetsFrom, startsFrom]
  | cons c cs ih =>
    rw [List.splitOn_cons_eq_if_modifyHead, offsetsFrom]
    by_cases hc : c = '\n'
    · subst hc
      have hsize : '\n'.utf8Size = 1 := rfl
      rw [if_pos rfl, if_pos (beq_self_eq_true _), List.map_cons, List.map_cons, hsize, ih,
        startsFrom_cons]
      rfl
    · obtain ⟨piece, pieces, hsplit⟩ := List.exists_cons_of_ne_nil (List.splitOn_ne_nil '\n' cs)
      -- the first piece gets longer by the character, so all that stands behind it moves
      have hrest := (List.cons.inj (hsplit ▸ ih (start + c.utf8Size))).2
      rw [if_neg hc, if_neg (mt eq_of_beq hc), hsplit, List.modifyHead_cons, List.map_cons,
        startsFrom_cons, hrest, String.ofList_cons, String.utf8ByteSize_append,
        String.utf8ByteSize_singleton, Nat.add_assoc start]

theorem length_offsetsFrom (c : Char) (start : Nat) (cs : List Char) :
    (offsetsFrom c start cs).length = cs.count c := by
  induction cs generalizing start with
  | nil => rfl
  | cons d cs ih =>
    rw [offsetsFrom]
    by_cases hd : d = c
    · rw [if_pos hd, List.length_cons, ih, hd, List.count_cons_self]
    · rw [if_neg hd, ih, List.count_cons_of_ne hd]

end Text

/-! ## Lines -/

namespace SourceText

variable (s : SourceText)

/-- The pieces of a text between its newlines. -/
def pieces : List String := (s.text.toList.splitOn '\n').map String.ofList

/-- A line is what is left of a piece without the carriage returns at its end. -/
structure IsChomped (piece line : String) : Prop where
  returns : ∃ k, piece = line ++ String.ofList (List.replicate k '\r')
  not_suffix : ¬['\r'] <:+ line.toList

theorem intercalate_pieces : "\n".intercalate s.pieces = s.text := by
  have hid : String.toList ∘ String.ofList = id := funext fun cs ↦ String.toList_ofList
  rw [← String.toList_inj, String.toList_intercalate, pieces, List.map_map, hid, List.map_id]
  exact List.intercalate_splitOn '\n'

theorem newline_notMem_of_mem_pieces {piece : String} (h : piece ∈ s.pieces) :
    '\n' ∉ piece.toList := by
  obtain ⟨cs, hcs, rfl⟩ := List.mem_map.mp h
  rw [String.toList_ofList]
  exact Text.notMem_of_mem_splitOn hcs

theorem lineStarts_eq_startsFrom : s.lineStarts = Text.startsFrom 0 s.pieces :=
  Text.cons_offsetsFrom_newline 0 s.text.toList

theorem lineCount_eq_count : s.lineCount = s.text.toList.count '\n' + 1 := by
  rw [lineCount, lineStarts, List.length_cons, List.length_map, Text.length_offsetsFrom]

theorem length_pieces : s.pieces.length = s.lineCount := by
  rw [lineCount, lineStarts_eq_startsFrom, Text.length_startsFrom]

theorem bounds?_eq_none_iff (n : Nat) : s.bounds? n = none ↔ n = 0 ∨ s.lineCount < n := by
  rw [bounds?, lineCount]
  by_cases hn : n = 0
  · rw [if_pos hn]
    exact iff_of_true rfl (.inl hn)
  · rw [if_neg hn, Option.map_eq_none_iff, List.getElem?_eq_none_iff]
    omega

variable {s}

/-- The bounds of a line are those of its piece in the text. -/
theorem exists_bounds?_eq {i : Nat} {piece : String} (h : s.pieces[i]? = some piece) :
    ∃ front back, s.text = front ++ piece ++ back ∧
      s.bounds? (i + 1) =
        some (front.utf8ByteSize, front.utf8ByteSize + piece.utf8ByteSize) := by
  obtain ⟨front, back, htext, hstart, hstop⟩ := Text.exists_intercalate_eq_append h 0
  rw [intercalate_pieces] at htext hstop
  rw [← lineStarts_eq_startsFrom] at hstart hstop
  simp only [Nat.zero_add] at hstart hstop
  refine ⟨front, back, htext, ?_⟩
  rw [bounds?, if_neg (Nat.succ_ne_zero i), Nat.add_sub_cancel, hstart, Option.map_some, hstop]

/-- What is cut out for a line is the piece with its number. -/
theorem piece?_succ (i : Nat) : s.piece? (i + 1) = s.pieces[i]? := by
  cases h : s.pieces[i]? with
  | none =>
    have hlt : s.lineCount < i + 1 := by
      rw [List.getElem?_eq_none_iff, length_pieces] at h
      exact Nat.lt_succ_of_le h
    rw [piece?, (s.bounds?_eq_none_iff (i + 1)).mpr (.inr hlt)]
    rfl
  | some piece =>
    obtain ⟨front, back, htext, hbounds⟩ := exists_bounds?_eq h
    rw [piece?, hbounds, htext]
    exact Text.slice?_append front piece back

theorem line?_eq_none_iff (n : Nat) : s.line? n = none ↔ n = 0 ∨ s.lineCount < n := by
  cases n with
  | zero => exact iff_of_true rfl (.inl rfl)
  | succ i =>
    rw [line?, Option.map_eq_none_iff, piece?_succ, List.getElem?_eq_none_iff, length_pieces]
    omega

theorem isChomped_chomp (piece : String) :
    IsChomped piece (String.ofList (chomp piece.toList)) where
  returns := by
    have hall : ∀ c ∈ piece.toList.rtakeWhile (· == '\r'), c = '\r' := by
      intro c hc
      have hbeq := List.mem_rtakeWhile_imp hc
      exact eq_of_beq hbeq
    refine ⟨(piece.toList.rtakeWhile (· == '\r')).length, ?_⟩
    rw [← List.eq_replicate_of_mem hall, ← String.ofList_append, ← String.toList_inj,
      String.toList_ofList]
    exact List.rdropWhile_append_rtakeWhile.symm
  not_suffix := by
    rw [String.toList_ofList]
    intro hsuffix
    have hne : chomp piece.toList ≠ [] := by
      intro hnil
      rw [hnil] at hsuffix
      exact List.cons_ne_nil _ _ (List.suffix_nil.mp hsuffix)
    have hlast : (chomp piece.toList).getLast hne = '\r' :=
      Option.some.inj ((List.getLast?_eq_some_getLast hne).symm.trans
        (List.singleton_suffix_iff_getLast?_eq_some.mp hsuffix))
    exact List.rdropWhile_last_not (· == '\r') piece.toList hne (beq_iff_eq.mpr hlast)

/-- Looking up a line answers for every number. There is one line more than there are newlines, and
lines are numbered from one. For each of them the bounds are a cut of the text, between them stands
the piece with that number, and the line is the piece without the carriage returns at its end. The
pieces are free of newlines, and joined by newlines they are the text. -/
theorem line?_exact (s : SourceText) :
    s.lineCount = s.text.toList.count '\n' + 1 ∧ s.pieces.length = s.lineCount ∧
      (∀ piece ∈ s.pieces, '\n' ∉ piece.toList) ∧ "\n".intercalate s.pieces = s.text ∧
      (∀ n, s.bounds? n = none ↔ n = 0 ∨ s.lineCount < n) ∧
      (∀ n, s.line? n = none ↔ n = 0 ∨ s.lineCount < n) ∧
      ∀ i < s.lineCount, ∃ start stop piece line,
        s.bounds? (i + 1) = some (start, stop) ∧ Text.IsCut s.text start stop ∧
        Text.slice? s.text start stop = some piece ∧ s.pieces[i]? = some piece ∧
        s.line? (i + 1) = some line ∧ IsChomped piece line := by
  refine ⟨s.lineCount_eq_count, s.length_pieces, fun _ ↦ s.newline_notMem_of_mem_pieces,
    s.intercalate_pieces, s.bounds?_eq_none_iff, line?_eq_none_iff, fun i hi ↦ ?_⟩
  obtain ⟨piece, hpiece⟩ : ∃ piece, s.pieces[i]? = some piece :=
    ⟨_, List.getElem?_eq_getElem (s.length_pieces ▸ hi)⟩
  obtain ⟨front, back, htext, hbounds⟩ := exists_bounds?_eq hpiece
  refine ⟨_, _, piece, _, hbounds, htext ▸ Text.isCut_append front piece back,
    htext ▸ Text.slice?_append front piece back, hpiece, ?_, isChomped_chomp piece⟩
  rw [line?, piece?_succ, hpiece, Option.map_some]

/-- Characters of two and three bytes, an empty line, and carriage returns with and without a
newline behind them. -/
def accented : SourceText := ⟨"prog.json", "größe\r\r\n\n€\r"⟩

theorem accented_line : 2 < accented.lineCount ∧ accented.bounds? 3 = some (11, 15) ∧
    Text.IsCut accented.text 11 15 ∧ "€\r" ∈ accented.pieces ∧ '\n' ∉ "€\r".toList ∧
    accented.line? 3 = some "€" ∧ IsChomped "€\r" "€" := by
  have hlt : 2 < accented.lineCount := by decide
  have hbounds : accented.bounds? 3 = some (11, 15) := by decide
  have hslice : Text.slice? accented.text 11 15 = some "€\r" := by decide +kernel
  have hline : accented.line? 3 = some "€" := by decide +kernel
  obtain ⟨-, -, hnewline, -, -, -, hlines⟩ := line?_exact accented
  obtain ⟨start, stop, piece, line, hbounds', hcut, hslice', hpiece, hline', hchomped⟩ :=
    hlines 2 hlt
  obtain ⟨rfl, rfl⟩ := Prod.mk.inj (Option.some.inj (hbounds.symm.trans hbounds'))
  obtain rfl := Option.some.inj (hslice.symm.trans hslice')
  obtain rfl := Option.some.inj (hline.symm.trans hline')
  have hmem : "€\r" ∈ accented.pieces := List.mem_of_getElem? hpiece
  exact ⟨hlt, hbounds, hcut, hmem, hnewline _ hmem, hline, hchomped⟩

end SourceText

end ScriptWasm
