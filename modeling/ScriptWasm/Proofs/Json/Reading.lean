import ScriptWasm.Json.Reader
import ScriptWasm.Proofs.Json.Lawful

/-!
# Written values are read back

A reader is met by the bytes of a value and whatever follows them. That it takes exactly the bytes
of the value is `Reader.Takes`. Nothing but a number minds what follows, so the rules ask for no
more than that no number goes on there; behind every item and member stands a comma or a closing
bracket, and the rules hold inside of lists and objects, too.

Brackets cost a level each, so a value is taken if it nests less deep than there are levels. With
this, texts are a lawful source.
-/

namespace ScriptWasm.Json.Reader

/-- The reader takes the value off whatever it is followed by. -/
def Takes {α : Type} (read : Reader α) (levels : Nat) (v : Value) (a : α) : Prop :=
  ∀ rest, EndsNumber rest → read levels (v.bytes ++ rest) = .ok (a, rest)

variable {α σ : Type} {levels : Nat} {rest : Bytes}

/-! ## Between values -/

theorem endsNumber_cons {b : UInt8} (hb : continues b = false) : EndsNumber (b :: rest) := by
  intro c hc
  cases hc
  exact hb

theorem endsNumber_laterItems (items : List Value) :
    EndsNumber (laterItems items ++ 93 :: rest) := by
  cases items with
  | nil => exact endsNumber_cons rfl
  | cons v items => exact endsNumber_cons rfl

theorem endsNumber_laterMembers (members : List (String × Value)) :
    EndsNumber (laterMembers members ++ 125 :: rest) := by
  cases members with
  | nil => exact endsNumber_cons rfl
  | cons m members => exact endsNumber_cons rfl

theorem skipBlanks_cons {b : UInt8} (hb : isBlank b = false) :
    skipBlanks (b :: rest) = b :: rest := by
  rw [skipBlanks, List.dropWhile_cons, hb]
  rfl

theorem start_cons {b : UInt8} (hb : isBlank b = false) : start (b :: rest) = .ok (b, rest) := by
  rw [start, skipBlanks_cons hb]

theorem word_append (ws : Bytes) : word ws (ws ++ rest) = .ok rest := by
  induction ws with
  | nil => rfl
  | cons w ws ih =>
    rw [List.cons_append, word, if_pos rfl]
    exact ih

/-! ## Scalars -/

theorem bytes_string_append (s : String) :
    Value.bytes (.string s) ++ rest = 34 :: (s.toList.flatMap escapedBytes ++ 34 :: rest) := by
  rw [Value.bytes, Value.write, bytesOf_writeString, List.append_assoc]
  rfl

theorem takes_quoted (expected s : String) : Takes (quoted expected) levels (.string s) s := by
  intro rest _
  rw [quoted, bytes_string_append, start_cons rfl, ok_bind]
  exact string_escaped s rest

theorem takes_boolean (b : Bool) : Takes boolean levels (.boolean b) b := by
  intro rest _
  cases b with
  | true =>
    rw [boolean, bytes_true, List.cons_append, start_cons rfl, ok_bind]
    simp only [if_true, word_append, ok_bind]
    rfl
  | false =>
    have hfalse : (102 : UInt8) ≠ 116 := by decide
    rw [boolean, bytes_false, List.cons_append, start_cons rfl, ok_bind]
    simp only [if_neg hfalse, if_true, word_append, ok_bind]
    rfl

/-- A number is told by its first byte. -/
theorem numeric_cons {expected : String} {make : Number → Except Problem α} {b : UInt8} {bs : Bytes}
    (hb : b = 45 ∨ isDigit b = true) :
    numeric expected make levels (b :: bs) =
      signedNumber (b :: bs) >>= fun (n, rest) ↦ judged (make n) rest := by
  rw [numeric, signedNumber]
  by_cases hminus : b = 45
  · rw [hminus, start_cons rfl, ok_bind]
    rfl
  · have hdigit := hb.resolve_left hminus
    rw [start_cons (isBlank_of_isDigit hdigit), ok_bind]
    simp only [if_neg hminus, if_pos hdigit]

theorem takes_numeric {expected : String} {make : Number → Except Problem α} {n : Number} {a : α}
    (hn : n.IsReadable) (hmake : make n = .ok a) :
    Takes (numeric expected make) levels (.number n) a := by
  intro rest hrest
  have htake := hn.append hrest
  obtain ⟨b, bs, hbytes, hb⟩ := hn.exists_cons
  have hbytes' : Value.bytes (.number n) = b :: bs := hbytes
  rw [hbytes, List.cons_append] at htake
  rw [hbytes', List.cons_append, numeric_cons hb, htake, ok_bind]
  simp only [hmake, judged]

theorem takes_double {x : Binary64} (hx : (Number.float x).IsReadable) :
    Takes double levels (.float x) x :=
  takes_numeric hx rfl

theorem takes_optional_null (item : Reader α) : Takes (optional item) levels .null none := by
  intro rest _
  rw [optional, bytes_null, List.cons_append, skipBlanks_cons rfl]
  simp only [word_append, ok_bind]
  rfl

theorem takes_optional {item : Reader α} {v : Value} {a : α} (hv : v.IsReadable)
    (hnull : v ≠ .null) (h : Takes item levels v a) :
    Takes (optional item) levels v (some a) := by
  intro rest hrest
  obtain ⟨b, bs, hbytes, hblank, _, hnull'⟩ := hv.exists_bytes_cons
  have htake := h rest hrest
  rw [hbytes, List.cons_append] at htake
  rw [optional, hbytes, List.cons_append, skipBlanks_cons hblank]
  split
  · rename_i heq
    exact absurd (hnull' (List.cons.inj heq).1) hnull
  · rw [htake, ok_bind]
    rfl

/-! ## Lists -/

theorem bracketed_of_ok {close : Bytes → Except Fault Bytes} {contents : Reader α} {opening : UInt8}
    {bytes inner : Bytes} {a : α} (hlevels : 1 < levels)
    (hcontents : contents (levels - 1) bytes = .ok (a, inner)) (hclose : close inner = .ok rest) :
    bracketed close contents levels opening bytes = .ok (a, rest) := by
  rw [bracketed, if_neg (Nat.not_le.mpr hlevels), hcontents]
  simp only [hclose]

theorem closeList_bracket : closeList (93 :: rest) = .ok rest := rfl

theorem closeObject_brace : closeObject (125 :: rest) = .ok rest := rfl

theorem nextItem_close (first : Bool) : nextItem first (93 :: rest) = .ok (none, 93 :: rest) := by
  rw [nextItem, skipBlanks_cons rfl]
  rfl

theorem nextItem_first {v : Value} (hv : v.IsReadable) :
    nextItem true (v.bytes ++ rest) = .ok (some (v.bytes ++ rest), v.bytes ++ rest) := by
  obtain ⟨b, bs, hbytes, hblank, hclose, _⟩ := hv.exists_bytes_cons
  rw [hbytes, List.cons_append, nextItem, skipBlanks_cons hblank]
  simp only [if_neg hclose, if_true]

theorem nextItem_later {v : Value} (hv : v.IsReadable) :
    nextItem false (44 :: (v.bytes ++ rest)) = .ok (some (v.bytes ++ rest), v.bytes ++ rest) := by
  obtain ⟨b, bs, hbytes, hblank, hclose, _⟩ := hv.exists_bytes_cons
  have hcomma : (44 : UInt8) ≠ 93 := by decide
  rw [hbytes, List.cons_append, nextItem, skipBlanks_cons rfl]
  simp only [if_neg hcomma, if_true, skipBlanks_cons hblank, if_neg hclose]
  rfl

section Lists

variable {ι : Type} {item : Reader α} {f : ι → Value} {g : ι → α}

theorem items_later {is : List ι}
    (h : ∀ i ∈ is, (f i).IsReadable ∧ Takes item levels (f i) (g i)) {done : List α}
    (hdone : done.isEmpty = false) {steps : Nat} (hsteps : is.length < steps) :
    items item levels steps done (laterItems (is.map f) ++ 93 :: rest) =
      .ok (done.reverse ++ is.map g, 93 :: rest) := by
  induction is generalizing done steps with
  | nil =>
    obtain ⟨steps, rfl⟩ := Nat.exists_eq_add_one_of_ne_zero (Nat.ne_of_gt hsteps)
    rw [items, List.map_nil, laterItems, List.flatMap_nil, List.nil_append, nextItem_close, ok_bind,
      List.map_nil, List.append_nil]
    rfl
  | cons i is ih =>
    obtain ⟨steps, rfl⟩ := Nat.exists_eq_add_one.mpr (Nat.zero_lt_of_lt hsteps)
    obtain ⟨hread, htake⟩ := h i List.mem_cons_self
    have hbytes : laterItems ((i :: is).map f) ++ 93 :: rest =
        44 :: ((f i).bytes ++ (laterItems (is.map f) ++ 93 :: rest)) := by
      rw [List.map_cons, laterItems_cons, List.cons_append, List.append_assoc]
    rw [hbytes, items, hdone, nextItem_later hread, ok_bind]
    simp only [htake _ (endsNumber_laterItems _), ok_bind]
    rw [ih (fun j hj ↦ h j (List.mem_cons_of_mem i hj)) rfl (Nat.lt_of_succ_lt_succ hsteps)]
    simp only [List.reverse_cons, List.append_assoc, List.singleton_append, List.map_cons]

theorem items_of_takes {is : List ι}
    (h : ∀ i ∈ is, (f i).IsReadable ∧ Takes item levels (f i) (g i)) {steps : Nat}
    (hsteps : is.length < steps) :
    items item levels steps [] (itemsBytes (is.map f) ++ 93 :: rest) =
      .ok (is.map g, 93 :: rest) := by
  obtain ⟨steps, rfl⟩ := Nat.exists_eq_add_one.mpr (Nat.zero_lt_of_lt hsteps)
  cases is with
  | nil =>
    rw [items, List.map_nil, itemsBytes, List.nil_append, nextItem_close, ok_bind]
    rfl
  | cons i is =>
    obtain ⟨hread, htake⟩ := h i List.mem_cons_self
    rw [List.map_cons, itemsBytes, List.append_assoc, items, List.isEmpty_nil, nextItem_first hread,
      ok_bind]
    simp only [htake _ (endsNumber_laterItems _), ok_bind]
    exact items_later (fun j hj ↦ h j (List.mem_cons_of_mem i hj)) rfl
      (Nat.lt_of_succ_lt_succ hsteps)

theorem length_le_itemsBytes (items : List Value) :
    items.length ≤ (itemsBytes items).length + 1 := by
  cases items with
  | nil => exact Nat.zero_le _
  | cons v items =>
    have hlater : items.length ≤ (laterItems items).length :=
      length_le_flatMap (fun _ ↦ List.cons_ne_nil _ _) items
    rw [itemsBytes, List.length_append, List.length_cons]
    omega

theorem takes_list {is : List ι} (hlevels : 1 < levels)
    (h : ∀ i ∈ is, (f i).IsReadable ∧ Takes item (levels - 1) (f i) (g i)) :
    Takes (list item) levels (.array (is.map f)) (is.map g) := by
  intro rest _
  have hsteps : is.length < (itemsBytes (is.map f) ++ 93 :: rest).length + 1 := by
    have := length_le_itemsBytes (is.map f)
    rw [List.length_map] at this
    rw [List.length_append, List.length_cons]
    omega
  rw [list, bytes_array, List.cons_append, List.append_assoc, List.singleton_append,
    start_cons rfl, ok_bind]
  simp only [if_true]
  exact bracketed_of_ok hlevels (items_of_takes h hsteps) closeList_bracket

end Lists

/-! ## Objects -/

theorem nextKey_close (first : Bool) : nextKey first (125 :: rest) = .ok (none, 125 :: rest) := by
  rw [nextKey, skipBlanks_cons rfl]
  rfl

theorem memberBytes_append (m : String × Value) :
    memberBytes m ++ rest =
      34 :: (m.1.toList.flatMap escapedBytes ++ 34 :: 58 :: (m.2.bytes ++ rest)) := by
  rw [memberBytes, bytesOf_writeString]
  simp only [List.append_assoc, List.cons_append, List.nil_append]

theorem nextKey_first (m : String × Value) :
    nextKey true (memberBytes m ++ rest) = .ok (some m.1, 58 :: (m.2.bytes ++ rest)) := by
  have hclose : (34 : UInt8) ≠ 125 := by decide
  rw [memberBytes_append, nextKey, skipBlanks_cons rfl]
  simp only [if_neg hclose, if_true, string_escaped, ok_bind]
  rfl

theorem nextKey_later (m : String × Value) :
    nextKey false (44 :: (memberBytes m ++ rest)) = .ok (some m.1, 58 :: (m.2.bytes ++ rest)) := by
  have hclose : (44 : UInt8) ≠ 125 := by decide
  rw [memberBytes_append, nextKey, skipBlanks_cons rfl]
  simp only [if_neg hclose, if_true, skipBlanks_cons (b := 34) rfl, string_escaped, ok_bind]
  rfl

theorem colon_cons : colon (58 :: rest) = .ok rest := by
  rw [colon, skipBlanks_cons rfl]
  rfl

section Objects

variable {members : List (Member Reader σ)} {other : String → Reader (σ → σ)}
  {seen seen' : List String} {s s' : σ} {entries : List (String × Value)}

theorem storeMembers_close {steps : Nat} {first : Bool} :
    storeMembers members other levels (steps + 1) first seen s (125 :: rest) =
      .ok ((s, seen), 125 :: rest) := by
  rw [storeMembers, nextKey_close, ok_bind]
  rfl

theorem storeMembers_member {m : Member Reader σ} {name : String} {v : Value} {store : σ → σ}
    {steps : Nat} {first : Bool} {bytes : Bytes}
    (hkey : nextKey first bytes = .ok (some name, 58 :: (v.bytes ++ rest)))
    (hfind : members.find? (·.name == name) = some m) (hnew : seen.contains name = false)
    (hread : Takes m.read levels v store) (hrest : EndsNumber rest) :
    storeMembers members other levels (steps + 1) first seen s bytes =
      storeMembers members other levels steps false (name :: seen) (store s) rest := by
  rw [storeMembers, hkey, ok_bind]
  simp only [hfind, hnew, Bool.false_eq_true, if_false, colon_cons, ok_bind, hread rest hrest]

theorem storeMembers_other {name : String} {v : Value} {store : σ → σ} {steps : Nat} {first : Bool}
    {bytes : Bytes} (hkey : nextKey first bytes = .ok (some name, 58 :: (v.bytes ++ rest)))
    (hfind : members.find? (·.name == name) = none) (hkeep : Takes (other name) levels v store)
    (hrest : EndsNumber rest) :
    storeMembers members other levels (steps + 1) first seen s bytes =
      storeMembers members other levels steps false seen (store s) rest := by
  rw [storeMembers, hkey, ok_bind]
  simp only [hfind, colon_cons, ok_bind, hkeep rest hrest]

theorem laterMembers_append (m : String × Value) :
    laterMembers (m :: entries) ++ rest =
      44 :: (memberBytes m ++ (laterMembers entries ++ rest)) := by
  rw [laterMembers_cons, List.cons_append, List.append_assoc]

theorem storeMembers_later
    (h : Stores members (Takes · levels) (fun key ↦ Takes (other key) levels) seen s entries
      seen' s')
    {steps : Nat} (hsteps : entries.length < steps) :
    storeMembers members other levels steps false seen s (laterMembers entries ++ 125 :: rest) =
      .ok ((s', seen'), 125 :: rest) := by
  induction h generalizing steps with
  | done =>
    obtain ⟨steps, rfl⟩ := Nat.exists_eq_add_one_of_ne_zero (Nat.ne_of_gt hsteps)
    exact storeMembers_close
  | member hfind hnew hread _ ih =>
    obtain ⟨steps, rfl⟩ := Nat.exists_eq_add_one.mpr (Nat.zero_lt_of_lt hsteps)
    rw [laterMembers_append, storeMembers_member (nextKey_later _) hfind hnew hread
      (endsNumber_laterMembers _)]
    exact ih (Nat.lt_of_succ_lt_succ hsteps)
  | other hfind hkeep _ ih =>
    obtain ⟨steps, rfl⟩ := Nat.exists_eq_add_one.mpr (Nat.zero_lt_of_lt hsteps)
    rw [laterMembers_append, storeMembers_other (nextKey_later _) hfind hkeep
      (endsNumber_laterMembers _)]
    exact ih (Nat.lt_of_succ_lt_succ hsteps)

/-- The first member has no comma in front of it. -/
theorem storeMembers_of_stores
    (h : Stores members (Takes · levels) (fun key ↦ Takes (other key) levels) seen s entries
      seen' s')
    {steps : Nat} (hsteps : entries.length < steps) :
    storeMembers members other levels steps true seen s (membersBytes entries ++ 125 :: rest) =
      .ok ((s', seen'), 125 :: rest) := by
  obtain ⟨steps, rfl⟩ := Nat.exists_eq_add_one.mpr (Nat.zero_lt_of_lt hsteps)
  cases h with
  | done => exact storeMembers_close
  | member hfind hnew hread hlater =>
    rw [membersBytes, List.append_assoc, storeMembers_member (nextKey_first _) hfind hnew hread
      (endsNumber_laterMembers _)]
    exact storeMembers_later hlater (Nat.lt_of_succ_lt_succ hsteps)
  | other hfind hkeep hlater =>
    rw [membersBytes, List.append_assoc, storeMembers_other (nextKey_first _) hfind hkeep
      (endsNumber_laterMembers _)]
    exact storeMembers_later hlater (Nat.lt_of_succ_lt_succ hsteps)

theorem length_le_membersBytes (members : List (String × Value)) :
    members.length ≤ (membersBytes members).length + 1 := by
  cases members with
  | nil => exact Nat.zero_le _
  | cons m members =>
    have hlater : members.length ≤ (laterMembers members).length :=
      length_le_flatMap (fun _ ↦ List.cons_ne_nil _ _) members
    rw [membersBytes, List.length_append, List.length_cons]
    omega

/-- What is between the brackets of an object. -/
theorem membersThen_of_stores {a : α} {finish : σ → Except Problem α}
    (h : Stores members (Takes · levels) (fun key ↦ Takes (other key) levels) [] s entries seen s')
    (hmissing : firstMissing? members seen = none) (hfinish : finish s' = .ok a) :
    membersThen s members other finish levels (membersBytes entries ++ 125 :: rest) =
      .ok (a, 125 :: rest) := by
  have hsteps : entries.length < (membersBytes entries ++ 125 :: rest).length + 1 := by
    have := length_le_membersBytes entries
    rw [List.length_append, List.length_cons]
    omega
  rw [membersThen, storeMembers_of_stores h hsteps, ok_bind]
  simp only [hmissing, hfinish]
  rfl

theorem takes_record {label : String} (hlevels : 1 < levels)
    (hnodup : (members.map (·.name)).Nodup)
    (h : Fills (Takes · (levels - 1)) members s entries s') :
    Takes (record label s members) levels (.object entries) s' := by
  intro rest _
  have hlist : (123 : UInt8) ≠ 91 := by decide
  obtain ⟨seen, hstores, hmissing⟩ := h.stores (fun _ ↦ Takes ignored (levels - 1)) hnodup
  rw [record, bytes_object, List.cons_append, List.append_assoc, List.singleton_append,
    start_cons rfl, ok_bind]
  simp only [if_neg hlist, if_true]
  exact bracketed_of_ok hlevels (membersThen_of_stores hstores hmissing rfl) closeObject_brace

end Objects

/-! ## Values of any kind -/

theorem takes_valueWithin_number {n : Number} {steps : Nat} (hn : n.IsReadable) :
    Takes (valueWithin (steps + 1)) levels (.number n) (.number n) := by
  intro rest hrest
  have htake := hn.append hrest
  obtain ⟨b, bs, hbytes, hb⟩ := hn.exists_cons
  have hbytes' : Value.bytes (.number n) = b :: bs := hbytes
  rw [hbytes, List.cons_append, signedNumber] at htake
  rw [hbytes', List.cons_append]
  by_cases hminus : b = 45
  · rw [if_pos hminus] at htake
    have hbranch (bytes : Bytes) : valueWithin (steps + 1) levels (45 :: bytes) =
        number true bytes >>= fun r ↦ .ok (.number r.1, r.2) := rfl
    rw [hminus, hbranch, htake, ok_bind]
  · have hdigit := hb.resolve_left hminus
    rw [if_neg hminus] at htake
    simp only [valueWithin, start_cons (isBlank_of_isDigit hdigit),
      if_neg (ne_of_isDigit hdigit (k := 110) rfl), if_neg (ne_of_isDigit hdigit (k := 116) rfl),
      if_neg (ne_of_isDigit hdigit (k := 102) rfl), if_neg hminus, if_pos hdigit, htake, ok_bind]
    rfl

theorem takes_map {β : Type} (f : α → β) {read : Reader α} {v : Value} {a : α}
    (h : Takes read levels v a) : Takes (Source.map f read) levels v (f a) := by
  intro rest hrest
  have htake := h rest hrest
  exact congrArg (· >>= fun r ↦ .ok (f r.1, r.2)) htake

/-- Buffers a member of an object, in front of the others. -/
def keepValue (item : Reader Value) (key : String) :
    Reader (List (String × Value) → List (String × Value)) :=
  Source.map (fun v members ↦ (key, v) :: members) item

/-- A value is buffered as it is. -/
theorem takes_valueWithin {steps : Nat} {v : Value} (hv : v.IsReadable) (hsteps : v.depth < steps)
    (hlevels : v.depth < levels) : Takes (valueWithin steps) levels v v := by
  induction steps generalizing v levels with
  | zero => exact absurd hsteps (Nat.not_lt_zero _)
  | succ steps ih =>
    -- the first byte tells the kind of the value, and so which branch is taken
    cases hv with
    | null =>
      intro rest _
      have hbranch (bytes : Bytes) : valueWithin (steps + 1) levels (110 :: bytes) =
          word wordNull bytes >>= fun rest ↦ .ok (.null, rest) := rfl
      rw [bytes_null, List.cons_append, hbranch, word_append, ok_bind]
    | boolean b =>
      intro rest _
      cases b with
      | true =>
        have hbranch (bytes : Bytes) : valueWithin (steps + 1) levels (116 :: bytes) =
            word wordTrue bytes >>= fun rest ↦ .ok (.boolean true, rest) := rfl
        rw [bytes_true, List.cons_append, hbranch, word_append, ok_bind]
      | false =>
        have hbranch (bytes : Bytes) : valueWithin (steps + 1) levels (102 :: bytes) =
            word wordFalse bytes >>= fun rest ↦ .ok (.boolean false, rest) := rfl
        rw [bytes_false, List.cons_append, hbranch, word_append, ok_bind]
    | number hn => exact takes_valueWithin_number hn
    | string s =>
      intro rest _
      have hbranch (bytes : Bytes) : valueWithin (steps + 1) levels (34 :: bytes) =
          string bytes >>= fun r ↦ .ok (.string r.1, r.2) := rfl
      rw [bytes_string_append, hbranch, string_escaped, ok_bind]
    | @array items hitems =>
      intro rest hrest
      rw [Value.depth] at hsteps hlevels
      -- a bracket costs a step and a level, and the items are less deep by one
      have hinner (v : Value) (hv : v ∈ items) :
          v.IsReadable ∧ Takes (valueWithin steps) (levels - 1) v v := by
        have hdepth := depth_le_of_mem_items hv
        exact ⟨hitems v hv, ih (hitems v hv) (by omega) (by omega)⟩
      have hlist : Takes (list (valueWithin steps)) levels (.array (items.map id)) (items.map id) :=
        takes_list (by omega) hinner
      have htake := hlist rest hrest
      have hbranch (bytes : Bytes) : valueWithin (steps + 1) levels (91 :: bytes) =
          list (valueWithin steps) levels (91 :: bytes) >>=
            fun r ↦ .ok (.array r.1, r.2) := rfl
      rw [List.map_id, bytes_array, List.cons_append] at htake
      rw [bytes_array, List.cons_append, hbranch, htake, ok_bind]
    | @object members hmembers =>
      intro rest _
      rw [Value.depth] at hsteps hlevels
      -- no member is known, so that all of them are kept, each in front of those before it
      have hkept : Stores [] (Takes · (levels - 1))
          (fun key ↦ Takes (keepValue (valueWithin steps) key) (levels - 1)) [] [] members []
          members.reverse := by
        have hfold : members.foldl (fun s e ↦ (e.1, e.2) :: s) [] = members.reverse :=
          List.foldl_flip_cons_eq_append'.trans (List.append_nil _)
        rw [← hfold]
        refine stores_others (fun name v others ↦ (name, v) :: others)
          (fun e he ↦ ⟨List.not_mem_nil, ?_⟩) [] []
        have hdepth := depth_le_of_mem_members he
        exact takes_map _ (ih (hmembers e he) (by omega) (by omega))
      have hbranch (bytes : Bytes) : valueWithin (steps + 1) levels (123 :: bytes) =
          bracketed closeObject (membersThen [] [] (keepValue (valueWithin steps)) .ok) levels 123
            bytes >>= fun r ↦ .ok (.object r.1.reverse, r.2) := rfl
      rw [bytes_object, List.cons_append, List.append_assoc, List.singleton_append, hbranch,
        bracketed_of_ok (by omega) (membersThen_of_stores hkept rfl rfl) closeObject_brace, ok_bind]
      exact congrArg (fun members ↦ Except.ok (Value.object members, rest))
        (List.reverse_reverse members)

theorem takes_value {v : Value} (hv : v.IsReadable) (hlevels : v.depth < levels)
    (hmax : levels ≤ maxLevels) : Takes value levels v v :=
  takes_valueWithin hv (Nat.lt_of_lt_of_le hlevels hmax) hlevels

theorem takes_lifted {m : Member Reader σ} {v : Value} {store : σ → σ}
    (h : Takes m.read levels v store) :
    Takes (lifted m).read levels v fun s ↦ (store s.1, s.2) :=
  takes_map (fun (store : σ → σ) (s : σ × List (String × Value)) ↦ (store s.1, s.2)) h

theorem takes_keep (key : String) {v : Value} (h : Takes value levels v v) :
    Takes (keep key) levels v fun s : σ × List (String × Value) ↦ (s.1, (key, v) :: s.2) :=
  takes_map (fun v (s : σ × List (String × Value)) ↦ (s.1, (key, v) :: s.2)) h

theorem foldl_keep (s : σ) (front others : List (String × Value)) :
    others.foldl (fun s e ↦ (s.1, (e.1, e.2) :: s.2)) (s, front) =
      (s, others.reverse ++ front) := by
  induction others generalizing front with
  | nil => rfl
  | cons e others ih =>
    rw [List.foldl_cons, ih, List.reverse_cons, List.append_assoc]
    rfl

theorem takes_gathered {label : String} {members : List (Member Reader σ)} {blank s : σ} {a : α}
    {finish : σ → List (String × Value) → Except Problem α} {others entries : List (String × Value)}
    (hlevels : 1 < levels) (hnodup : (members.map (·.name)).Nodup)
    (h : Fills (Takes · (levels - 1)) members blank entries s)
    (hothers : ∀ e ∈ others, e.1 ∉ members.map (·.name) ∧ Takes value (levels - 1) e.2 e.2)
    (hfinish : finish s others = .ok a) :
    Takes (gathered label blank members finish) levels (.object (others ++ entries)) a := by
  intro rest _
  have hnames : (members.map lifted).map (·.name) = members.map (·.name) := by
    rw [List.map_map]
    rfl
  -- the members that the record does not know come first, and are kept in reverse
  have hkept : Stores (members.map lifted) (Takes · (levels - 1))
      (fun key ↦ Takes (keep key) (levels - 1)) [] (blank, []) others []
      (blank, others.reverse) := by
    have hfold := foldl_keep blank [] others
    rw [List.append_nil] at hfold
    rw [← hfold]
    refine stores_others (fun name v s ↦ (s.1, (name, v) :: s.2))
      (fun e he ↦ ⟨hnames ▸ (hothers e he).1, ?_⟩) [] (blank, [])
    exact takes_keep e.1 (hothers e he).2
  have hfills : Fills (Takes · (levels - 1)) (members.map lifted) (blank, others.reverse) entries
      (s, others.reverse) :=
    h.lifted (·, others.reverse) (fun _ ↦ rfl) (fun _ ↦ rfl) fun m v store hread ↦
      ⟨_, takes_lifted hread, fun _ ↦ rfl⟩
  obtain ⟨seen, hstored, hmissing⟩ := hfills.stores (fun key ↦ Takes (keep key) (levels - 1))
    (hnames ▸ hnodup)
  have hall := hkept.append hstored
  rw [gathered, bytes_object, List.cons_append, List.append_assoc, List.singleton_append,
    start_cons rfl, ok_bind]
  simp only [if_true]
  refine bracketed_of_ok hlevels (membersThen_of_stores hall hmissing ?_) closeObject_brace
  rw [List.reverse_reverse]
  exact hfinish

/-! ## Alternatives -/

theorem takes_variant_unit {options : List (String × Shape Reader α)} {name : String} {a : α}
    (hlookup : options.lookup name = some (.unit a)) :
    Takes (variant options) levels (.string name) a := by
  intro rest _
  rw [variant, bytes_string_append, start_cons rfl, ok_bind]
  simp only [if_true, string_escaped, ok_bind, Decoder.select_of_lookup hlookup, judged]
  rfl

theorem takes_variant {options : List (String × Shape Reader α)} {name : String} {a : α}
    {shape : Shape Reader α} {v : Value} (hlevels : 1 < levels)
    (hlookup : options.lookup name = some shape) (h : Takes (payload shape) (levels - 1) v a) :
    Takes (variant options) levels (.object [(name, v)]) a := by
  intro rest _
  have hstring : (123 : UInt8) ≠ 34 := by decide
  have hpayload := h (125 :: rest) (endsNumber_cons rfl)
  have htag (bytes : Bytes) : tag (34 :: bytes) = string bytes := rfl
  have hbytes : membersBytes [(name, v)] ++ [125] ++ rest =
      34 :: (name.toList.flatMap escapedBytes ++ 34 :: 58 :: (v.bytes ++ 125 :: rest)) := by
    rw [membersBytes, laterMembers, List.flatMap_nil, List.append_nil, List.append_assoc,
      memberBytes_append]
    rfl
  rw [variant, bytes_object, List.cons_append, start_cons rfl, ok_bind, hbytes]
  simp only [if_neg hstring, if_true, if_neg (Nat.not_le.mpr hlevels), htag, string_escaped,
    ok_bind, Decoder.select_of_lookup hlookup, judged, colon_cons, hpayload,
    skipBlanks_cons (b := 125) rfl]

/-! ## Texts as a source -/

/-- The readers that take a value wherever there are levels enough. -/
def Accepts (read : Reader α) (v : Value) (a : α) : Prop :=
  ∀ levels, levels ≤ maxLevels → v.depth < levels → Takes read levels v a

theorem accepts_record {label : String} {members : List (Member Reader σ)} {blank s : σ}
    {entries : List (String × Value)} (hnodup : (members.map (·.name)).Nodup)
    (h : Fills (fun read v store ↦ v.IsReadable ∧ Accepts read v store) members blank entries s) :
    Accepts (record label blank members) (.object entries) s := by
  intro levels hmax hdepth
  rw [Value.depth] at hdepth
  refine takes_record (by omega) hnodup (h.imp fun e he read store hread ↦ ?_)
  have := depth_le_of_mem_members he
  exact hread.2 _ (by omega) (by omega)

theorem accepts_variant {options : List (String × Shape Reader α)} {name : String} {a : α}
    {shape : Shape Reader α} {v : Value} (hlookup : options.lookup name = some shape)
    (h : Accepts (payload shape) v a) : Accepts (variant options) (.object [(name, v)]) a := by
  intro levels hmax hdepth
  rw [Value.depth] at hdepth
  have hmem : v.depth ≤ membersDepth [(name, v)] :=
    depth_le_of_mem_members (List.mem_singleton_self (name, v))
  exact takes_variant (by omega) hlookup (h _ (by omega) (by omega))

instance : LawfulSource Reader where
  Reads form v a := v.IsReadable ∧ Accepts form v a
  isReadable h := h.1
  map f _ _ _ h := ⟨h.1, fun levels hmax hdepth ↦ takes_map f (h.2 levels hmax hdepth)⟩
  text s := ⟨.string s, fun _ _ _ ↦ takes_quoted _ s⟩
  boolean b := ⟨.boolean b, fun _ _ _ ↦ takes_boolean b⟩
  double h := ⟨.number h, fun _ _ _ ↦ takes_double h⟩
  natural := by
    intro limit n expected hlimit hn
    refine ⟨Value.isReadable_natural hn, fun _ _ _ ↦ ?_⟩
    have hfits : (0 : Int) ≤ n ∧ (n : Int) < limit :=
      ⟨Int.natCast_nonneg n, Int.ofNat_lt.mpr hlimit⟩
    exact takes_numeric (Number.isReadable_integer hn) (if_pos hfits)
  optional_none item := ⟨.null, fun _ _ _ ↦ takes_optional_null item⟩
  optional_some hnull h :=
    ⟨h.1, fun levels hmax hdepth ↦ takes_optional h.1 hnull (h.2 levels hmax hdepth)⟩
  list := by
    intro ι α item is f g h
    refine ⟨.array_map fun i hi ↦ (h i hi).1, fun levels hmax hdepth ↦ ?_⟩
    rw [Value.depth] at hdepth
    refine takes_list (by omega) fun i hi ↦ ⟨(h i hi).1, (h i hi).2 _ (by omega) ?_⟩
    have hmem : f i ∈ is.map f := List.mem_map_of_mem hi
    have := depth_le_of_mem_items hmem
    omega
  record hnodup h :=
    ⟨.object (h.forall_entries fun _ _ _ ↦ And.left), accepts_record hnodup h⟩
  fields hnodup h :=
    ⟨.object (h.forall_entries fun _ _ _ ↦ And.left), accepts_record hnodup h⟩
  gathered := by
    intro σ α label blank s a members finish others entries hnodup h hothers hfinish
    refine ⟨.object_append (fun e he ↦ (hothers e he).2)
      (h.forall_entries fun _ _ _ ↦ And.left), fun levels hmax hdepth ↦ ?_⟩
    rw [Value.depth] at hdepth
    have hinner (e : String × Value) (he : e ∈ others ++ entries) : e.2.depth < levels - 1 := by
      have := depth_le_of_mem_members he
      omega
    refine takes_gathered (by omega) hnodup (h.imp fun e he read store hread ↦ ?_)
      (fun e he ↦ ⟨(hothers e he).1, ?_⟩) hfinish
    · exact hread.2 _ (by omega) (hinner e (List.mem_append_right _ he))
    · exact takes_value (hothers e he).2 (hinner e (List.mem_append_left _ he)) (by omega)
  variant_unit hlookup := ⟨.string _, fun _ _ _ ↦ takes_variant_unit hlookup⟩
  variant_single hlookup h := ⟨.object_single h.1, accepts_variant hlookup h.2⟩
  variant_fields hlookup h := ⟨.object_single h.1, accepts_variant hlookup h.2⟩

/-! ## Whole texts -/

theorem run_of_reads {form : Reader α} {v : Value} {a : α} (h : LawfulSource.Reads form v a)
    (hdepth : v.depth < maxLevels) : run form v.bytes = .ok a := by
  have hends : EndsNumber [] := fun b hb ↦ absurd hb (Option.not_mem_none b)
  have htake := h.2 maxLevels (Nat.le_refl _) hdepth [] hends
  rw [List.append_nil] at htake
  rw [run, htake, ok_bind]
  rfl

/-- A double that is read from its own text can stand in any value. -/
theorem isReadable_float_of_read {x : Binary64} (h : Json.read Source.double x.text = .ok x) :
    (Number.float x).IsReadable := by
  obtain ⟨b, bs, hbytes, hb⟩ := exists_bytesOf_text_cons x
  obtain ⟨⟨y, r⟩, hread, hend⟩ := bind_eq_ok_iff.mp h
  have hread' : double maxLevels (bytesOf x.text) = .ok (y, r) := hread
  rw [double, hbytes, numeric_cons hb, ← hbytes] at hread'
  obtain ⟨⟨n, r'⟩, hnumber, hjudged⟩ := bind_eq_ok_iff.mp hread'
  -- an integer would have been made a double, too, but the text of a double is none
  obtain ⟨z, rfl⟩ := isFloat_of_signedNumber_text hnumber
  cases hjudged
  dsimp only at hend
  split at hend
  · rename_i hblank
    cases hend
    exact Number.isReadable_float hnumber hblank
  · cases hend

end ScriptWasm.Json.Reader
