import ScriptWasm.Library.Scan

/-!
# What a scan finds

The registry of scanned libraries is described by two rules of precedence that point in opposite
directions: within a type the first member of a name counts, over all libraries the last type of a
name. Both look only at what qualifies, so a member that cannot be called hides none behind it, and
a type without anything to call replaces none before it.

The rules are stated on the declarations alone. A scan is a fold over the declarations in the order
in which they are met, and what one step of the fold does to one key gives what the whole scan does.
-/

namespace ScriptWasm

/-! ## First and last -/

section Precedence

variable {α : Type} {p : α → Prop} {l : List α} {a : α}

/-- The first element of a list that has a property. -/
def IsFirst (p : α → Prop) (l : List α) (a : α) : Prop :=
  ∃ before after, l = before ++ a :: after ∧ p a ∧ ∀ b ∈ before, ¬ p b

/-- The last element of a list that has a property. -/
def IsLast (p : α → Prop) (l : List α) (a : α) : Prop :=
  ∃ before after, l = before ++ a :: after ∧ p a ∧ ∀ b ∈ after, ¬ p b

theorem find?_eq_some_iff_isFirst [DecidablePred p] :
    l.find? (p ·) = some a ↔ IsFirst p l a := by
  rw [List.find?_eq_some_iff_append, IsFirst]
  constructor
  · rintro ⟨ha, before, after, hl, hbefore⟩
    exact ⟨before, after, hl, of_decide_eq_true ha, fun b hb ↦ by simpa using hbefore b hb⟩
  · rintro ⟨before, after, hl, ha, hbefore⟩
    exact ⟨decide_eq_true ha, before, after, hl, fun b hb ↦ by simpa using hbefore b hb⟩

theorem isFirst_reverse : IsFirst p l.reverse a ↔ IsLast p l a := by
  constructor
  · rintro ⟨before, after, hl, ha, hbefore⟩
    refine ⟨after.reverse, before.reverse, ?_, ha, fun b hb ↦ hbefore b (List.mem_reverse.mp hb)⟩
    rw [← l.reverse_reverse, hl]
    simp
  · rintro ⟨before, after, rfl, ha, hafter⟩
    refine ⟨after.reverse, before.reverse, by simp, ha, fun b hb ↦ ?_⟩
    exact hafter b (List.mem_reverse.mp hb)

end Precedence

/-! ## Tables -/

namespace KeyTable

variable {α β : Type}

/-- A table holds exactly the given values under their keys, each key once and in order. -/
structure Lists (t : KeyTable α) (holds : String → α → Prop) : Prop where
  ordered : t.entries.Pairwise fun a b ↦ a.1 < b.1
  get?_iff : ∀ key value, t.get? key = some value ↔ holds key value

theorem lookup_cons_eq (k key : String) (value : α) (l : List (String × α)) :
    ((key, value) :: l).lookup k = if k = key then some value else l.lookup k := by
  rw [List.lookup_cons]
  by_cases hk : k = key
  · simp [hk]
  · simp [hk, beq_false_of_ne hk]

theorem lookup_insertEntry (key k : String) (value : α) (l : List (String × α)) :
    (insertEntry key value l).lookup k = if k = key then some value else l.lookup k := by
  induction l with
  | nil => exact lookup_cons_eq k key value []
  | cons e l ih =>
    obtain ⟨k', v⟩ := e
    rw [insertEntry]
    split
    · rename_i heq
      subst heq
      by_cases hk : k = key <;> simp only [lookup_cons_eq, hk, if_true, if_false]
    · rename_i hne
      split
      · rw [lookup_cons_eq]
      · rw [lookup_cons_eq, lookup_cons_eq, ih]
        by_cases hk : k = k'
        · have hkey : k ≠ key := fun h ↦ hne (h.symm.trans hk)
          simp only [hk, if_true, if_neg (hk ▸ hkey)]
        · simp only [hk, if_false]

@[simp] theorem get?_empty (k : String) : (empty : KeyTable α).get? k = none := rfl

theorem get?_insert (t : KeyTable α) (key k : String) (value : α) :
    (t.insert key value).get? k = if k = key then some value else t.get? k :=
  lookup_insertEntry key k value t.entries

/-- What is entered as new is only found if there was nothing before. -/
theorem get?_insertNew (t : KeyTable α) (key k : String) (value : α) :
    (t.insertNew key value).get? k = (t.get? k).or (if k = key then some value else none) := by
  rw [insertNew]
  split
  · rename_i hsome
    by_cases hk : k = key
    · obtain ⟨v, hv⟩ := Option.isSome_iff_exists.mp hsome
      simp [hk, hv]
    · simp [hk]
  · rename_i hnone
    rw [get?_insert]
    by_cases hk : k = key
    · simp [hk, Option.not_isSome_iff_eq_none.mp hnone]
    · simp [hk]

theorem mem_insertEntry {key : String} {value : α} {l : List (String × α)} {e : String × α}
    (he : e ∈ insertEntry key value l) : e = (key, value) ∨ e ∈ l := by
  induction l with
  | nil => exact .inl (by simpa [insertEntry] using he)
  | cons f l ih =>
    rw [insertEntry] at he
    split at he
    · exact (List.mem_cons.mp he).imp id (List.mem_cons_of_mem f)
    · split at he
      · exact List.mem_cons.mp he
      · obtain rfl | he := List.mem_cons.mp he
        · exact .inr List.mem_cons_self
        · exact (ih he).imp id (List.mem_cons_of_mem f)

theorem pairwise_insertEntry {key : String} {value : α} {l : List (String × α)}
    (hl : l.Pairwise fun a b ↦ a.1 < b.1) :
    (insertEntry key value l).Pairwise fun a b ↦ a.1 < b.1 := by
  induction l with
  | nil => simp [insertEntry]
  | cons f l ih =>
    obtain ⟨k, v⟩ := f
    obtain ⟨hhead, htail⟩ := List.pairwise_cons.mp hl
    rw [insertEntry]
    split
    · rename_i heq
      exact List.pairwise_cons.mpr ⟨heq ▸ hhead, htail⟩
    · rename_i hne
      split
      · rename_i hlt
        refine List.pairwise_cons.mpr ⟨fun e he ↦ ?_, hl⟩
        obtain rfl | he := List.mem_cons.mp he
        · exact hlt
        · exact String.lt_trans hlt (hhead e he)
      · rename_i hle
        refine List.pairwise_cons.mpr ⟨fun e he ↦ ?_, ih htail⟩
        obtain rfl | he := mem_insertEntry he
        · exact Std.lt_of_le_of_ne hle (Ne.symm hne)
        · exact hhead e he

theorem pairwise_insertNew {t : KeyTable α} {key : String} {value : α}
    (ht : t.entries.Pairwise fun a b ↦ a.1 < b.1) :
    (t.insertNew key value).entries.Pairwise fun a b ↦ a.1 < b.1 := by
  rw [insertNew]
  split
  · exact ht
  · exact pairwise_insertEntry ht

/-! ### Members by name -/

section Members

variable (name : α → String) (describe : α → β)

/-- The first member of a name is the one that is found, unless something was found before. -/
theorem get?_foldl_insertNew (members : List α) (t : KeyTable β) (n : String) :
    (members.foldl (fun t a ↦ t.insertNew (Registry.key (name a)) (describe a)) t).get? n =
      (t.get? n).or ((members.find? fun a ↦ Registry.key (name a) = n).map describe) := by
  induction members generalizing t with
  | nil => simp
  | cons a members ih =>
    rw [List.foldl_cons, ih, get?_insertNew, Option.or_assoc, List.find?_cons]
    by_cases ha : Registry.key (name a) = n
    · simp [ha]
    · simp [ha, Ne.symm ha]

theorem get?_ofMembers (members : List α) (n : String) :
    (ofMembers name describe members).get? n =
      (members.find? fun a ↦ Registry.key (name a) = n).map describe := by
  rw [ofMembers, get?_foldl_insertNew, get?_empty, Option.none_or]

theorem pairwise_ofMembers (members : List α) :
    (ofMembers name describe members).entries.Pairwise fun a b ↦ a.1 < b.1 := by
  rw [ofMembers]
  refine List.foldlRecOn members _ (motive := fun t : KeyTable β ↦
    t.entries.Pairwise fun a b ↦ a.1 < b.1) List.Pairwise.nil ?_
  exact fun t ht a _ ↦ pairwise_insertNew ht

/-- A table of members is empty only if there are none. -/
theorem isEmpty_ofMembers (members : List α) :
    (ofMembers name describe members).isEmpty = members.isEmpty := by
  cases members with
  | nil => rfl
  | cons a members =>
    have hget := get?_ofMembers name describe (a :: members) (Registry.key (name a))
    rw [isEmpty, List.isEmpty_cons, List.isEmpty_eq_false_iff]
    intro hentries
    simp [get?, hentries] at hget

/-- A table of the members that qualify holds, under each name, the first of them. -/
theorem ofMembers_lists (qualifies : α → Prop) [DecidablePred qualifies] (members : List α) :
    (ofMembers name describe (members.filter (qualifies ·))).Lists fun n b ↦
      ∃ a, IsFirst (fun a ↦ qualifies a ∧ Registry.key (name a) = n) members a ∧
        b = describe a where
  ordered := pairwise_ofMembers name describe _
  get?_iff n b := by
    have hfind : (members.filter (qualifies ·)).find? (fun a ↦ Registry.key (name a) = n) =
        members.find? fun a ↦ qualifies a ∧ Registry.key (name a) = n := by
      simp [List.find?_filter]
    rw [get?_ofMembers, hfind, Option.map_eq_some_iff]
    simp only [find?_eq_some_iff_isFirst, eq_comm (a := b)]

end Members

end KeyTable

/-! ## What qualifies -/

/-- A method can be called: it is public and static, an ordinary method, and takes and returns
nothing but values. -/
structure MethodDecl.Eligible (m : MethodDecl) : Prop where
  isStatic : m.isStatic = true
  isPublic : m.isPublic = true
  notGeneric : m.isGeneric = false
  notConstructor : m.isConstructor = false
  noSpecialName : m.hasSpecialName = false
  returns : m.returns = .void ∨ m.returns = .primitive
  params : ∀ type ∈ m.params, type = .primitive

/-- A property can be used: it is public and static, without a special name, and holds a value. -/
structure PropertyDecl.Eligible (p : PropertyDecl) : Prop where
  isStatic : p.isStatic = true
  isPublic : p.isPublic = true
  noSpecialName : p.hasSpecialName = false
  type : p.type = .primitive

/-- An event can be subscribed to: it is public and static, without a special name, and is handled
by a routine. -/
structure EventDecl.Eligible (e : EventDecl) : Prop where
  isStatic : e.isStatic = true
  isPublic : e.isPublic = true
  noSpecialName : e.hasSpecialName = false
  handler : e.handler = .callback

theorem MethodDecl.isEligible_iff (m : MethodDecl) : m.isEligible = true ↔ m.Eligible := by
  simp only [isEligible, Bool.and_eq_true, Bool.or_eq_true, Bool.not_eq_true', decide_eq_true_eq,
    List.all_eq_true]
  constructor
  · rintro ⟨⟨⟨⟨⟨⟨hstatic, hpublic⟩, hgeneric⟩, hconstructor⟩, hspecial⟩, hreturns⟩, hparams⟩
    exact ⟨hstatic, hpublic, hgeneric, hconstructor, hspecial, hreturns, hparams⟩
  · rintro ⟨hstatic, hpublic, hgeneric, hconstructor, hspecial, hreturns, hparams⟩
    exact ⟨⟨⟨⟨⟨⟨hstatic, hpublic⟩, hgeneric⟩, hconstructor⟩, hspecial⟩, hreturns⟩, hparams⟩

theorem PropertyDecl.isEligible_iff (p : PropertyDecl) : p.isEligible = true ↔ p.Eligible := by
  simp only [isEligible, Bool.and_eq_true, Bool.not_eq_true', decide_eq_true_eq]
  constructor
  · rintro ⟨⟨⟨hstatic, hpublic⟩, hspecial⟩, htype⟩
    exact ⟨hstatic, hpublic, hspecial, htype⟩
  · rintro ⟨hstatic, hpublic, hspecial, htype⟩
    exact ⟨⟨⟨hstatic, hpublic⟩, hspecial⟩, htype⟩

theorem EventDecl.isEligible_iff (e : EventDecl) : e.isEligible = true ↔ e.Eligible := by
  simp only [isEligible, Bool.and_eq_true, Bool.not_eq_true', decide_eq_true_eq]
  constructor
  · rintro ⟨⟨⟨hstatic, hpublic⟩, hspecial⟩, hhandler⟩
    exact ⟨hstatic, hpublic, hspecial, hhandler⟩
  · rintro ⟨hstatic, hpublic, hspecial, hhandler⟩
    exact ⟨⟨⟨hstatic, hpublic⟩, hspecial⟩, hhandler⟩

instance : DecidablePred MethodDecl.Eligible := fun m ↦ decidable_of_iff _ m.isEligible_iff

instance : DecidablePred PropertyDecl.Eligible := fun p ↦ decidable_of_iff _ p.isEligible_iff

instance : DecidablePred EventDecl.Eligible := fun e ↦ decidable_of_iff _ e.isEligible_iff

namespace TypeDecl

/-- Something on a type can be called. -/
def HasEligible (t : TypeDecl) : Prop :=
  (∃ m ∈ t.methods, m.Eligible) ∨ (∃ p ∈ t.properties, p.Eligible) ∨ ∃ e ∈ t.events, e.Eligible

/-- A type is offered under a key: it is marked and visible, its name has that key, and something on
it can be called. -/
def OffersUnder (t : TypeDecl) (key : String) : Prop :=
  t.isLibraryType = true ∧ t.isVisible = true ∧ Registry.key t.name = key ∧ t.HasEligible

instance (t : TypeDecl) : Decidable t.HasEligible :=
  inferInstanceAs (Decidable (_ ∨ _))

instance (t : TypeDecl) (key : String) : Decidable (t.OffersUnder key) :=
  inferInstanceAs (Decidable (_ ∧ _))

end TypeDecl

/-! ## What is entered for a type -/

/-- A descriptor says what programs can call on a type that is imported from a module. It keeps the
spelling of the type and whether it is hidden; under each name stands the first member that can be
called, imported by the field that is given for it or else made from its name. -/
structure TypeDescriptor.Describes (d : TypeDescriptor) (module : String) (t : TypeDecl) :
    Prop where
  name : d.name = t.name
  isHidden : d.isHidden = t.isHidden
  methods : d.methods.Lists fun key described ↦
    ∃ m, IsFirst (fun m ↦ m.Eligible ∧ Registry.key m.name = key) t.methods m ∧
      described =
        { type := t.name
          name := m.name
          source := ⟨module, m.field?.getD (t.name ++ "." ++ m.name)⟩
          paramCount := m.params.length
          returnsValue := decide (m.returns = .primitive) }
  properties : d.properties.Lists fun key described ↦
    ∃ p, IsFirst (fun p ↦ p.Eligible ∧ Registry.key p.name = key) t.properties p ∧
      described =
        { type := t.name
          name := p.name
          getter? :=
            if p.readable then some ⟨module, p.getter?.getD (t.name ++ ".get_" ++ p.name)⟩
            else none
          setter? :=
            if p.writable then some ⟨module, p.setter?.getD (t.name ++ ".set_" ++ p.name)⟩
            else none }
  events : d.events.Lists fun key described ↦
    ∃ e, IsFirst (fun e ↦ e.Eligible ∧ Registry.key e.name = key) t.events e ∧
      described =
        { type := t.name
          name := e.name
          subscribe := ⟨module, e.subscribe?.getD (t.name ++ ".add_" ++ e.name)⟩ }

namespace TypeDecl

theorem filter_isEligible (t : TypeDecl) :
    t.methods.filter MethodDecl.isEligible = t.methods.filter (MethodDecl.Eligible ·) ∧
      t.properties.filter PropertyDecl.isEligible =
        t.properties.filter (PropertyDecl.Eligible ·) ∧
      t.events.filter EventDecl.isEligible = t.events.filter (EventDecl.Eligible ·) := by
  simp only [← MethodDecl.isEligible_iff, ← PropertyDecl.isEligible_iff,
    ← EventDecl.isEligible_iff, Bool.decide_eq_true, and_self]

theorem describe_describes (module : String) (t : TypeDecl) :
    (t.describe module).Describes module t where
  name := rfl
  isHidden := rfl
  methods := by
    rw [describe, t.filter_isEligible.1]
    exact KeyTable.ofMembers_lists _ _ _ t.methods
  properties := by
    rw [describe, t.filter_isEligible.2.1]
    exact KeyTable.ofMembers_lists _ _ _ t.properties
  events := by
    rw [describe, t.filter_isEligible.2.2]
    exact KeyTable.ofMembers_lists _ _ _ t.events

theorem isEmpty_describe_iff (module : String) (t : TypeDecl) :
    (t.describe module).isEmpty = true ↔ ¬ t.HasEligible := by
  obtain ⟨hmethods, hproperties, hevents⟩ := t.filter_isEligible
  simp only [TypeDescriptor.isEmpty, describe, KeyTable.isEmpty_ofMembers, hmethods, hproperties,
    hevents, Bool.and_eq_true, List.isEmpty_iff, List.filter_eq_nil_iff, decide_eq_true_eq,
    HasEligible, not_or, not_exists, not_and, and_assoc]

end TypeDecl

/-! ## The scan -/

namespace Library

/-- The types of libraries in the order in which they are scanned, each with its module. -/
def scanOrder (libraries : List Library) : List (String × TypeDecl) :=
  libraries.flatMap fun l ↦ l.manifest.types.map fun t ↦ (l.module, t)

theorem exists_mem_scanOrder {libraries : List Library} {P : TypeDecl → Prop} :
    (∃ e ∈ scanOrder libraries, P e.2) ↔ ∃ l ∈ libraries, ∃ t ∈ l.manifest.types, P t := by
  simp only [scanOrder, List.mem_flatMap, List.mem_map]
  constructor
  · rintro ⟨_, ⟨l, hl, t, ht, rfl⟩, hP⟩
    exact ⟨l, hl, t, ht, hP⟩
  · rintro ⟨l, hl, t, ht, hP⟩
    exact ⟨_, ⟨l, hl, t, ht, rfl⟩, hP⟩

end Library

namespace Registry

/-- A scan meets the types of the libraries one after the other. -/
theorem scan_eq_foldl (libraries : List Library) :
    scan libraries = (Library.scanOrder libraries).foldl (fun r e ↦ r.addType e.1 e.2) empty := by
  rw [scan, Library.scanOrder, List.foldl_flatMap]
  simp only [List.foldl_map]
  rfl

/-- A type is found under its key if it is offered there, and changes nothing otherwise. -/
theorem get?_addType (module : String) (r : Registry) (t : TypeDecl) (k : String) :
    (r.addType module t).types.get? k =
      if t.OffersUnder k then some (t.describe module) else r.types.get? k := by
  rw [addType]
  split
  · rename_i hoffered
    obtain ⟨hmarked, hvisible⟩ := Bool.and_eq_true_iff.mp hoffered
    by_cases heligible : t.HasEligible
    · have hempty : (t.describe module).isEmpty = false := by
        rw [Bool.eq_false_iff, Ne, t.isEmpty_describe_iff module, Decidable.not_not]
        exact heligible
      have hiff : t.OffersUnder k ↔ k = key t.name := by
        simp [TypeDecl.OffersUnder, hmarked, hvisible, heligible, eq_comm]
      simp only [hempty, Bool.false_eq_true, if_false, insert, KeyTable.get?_insert, hiff]
      rfl
    · have hoffers : ¬ t.OffersUnder k := fun h ↦ heligible h.2.2.2
      simp only [(t.isEmpty_describe_iff module).mpr heligible, if_true, hoffers, if_false]
  · rename_i hoffered
    have hoffers : ¬ t.OffersUnder k := fun h ↦
      hoffered (Bool.and_eq_true_iff.mpr ⟨h.1, h.2.1⟩)
    simp only [hoffers, if_false]

theorem pairwise_addType {module : String} {r : Registry} {t : TypeDecl}
    (hr : r.types.entries.Pairwise fun a b ↦ a.1 < b.1) :
    (r.addType module t).types.entries.Pairwise fun a b ↦ a.1 < b.1 := by
  rw [addType]
  split
  · dsimp only
    split
    · exact hr
    · exact KeyTable.pairwise_insertEntry hr
  · exact hr

/-- Of the types that are met, the last that is offered under a key is found there; without any it
is what was there before. -/
theorem get?_foldl_addType (types : List (String × TypeDecl)) (r : Registry) (k : String) :
    (types.foldl (fun r e ↦ r.addType e.1 e.2) r).types.get? k =
      ((types.reverse.find? fun e ↦ e.2.OffersUnder k).map fun e ↦ e.2.describe e.1).or
        (r.types.get? k) := by
  induction types generalizing r with
  | nil => simp
  | cons e types ih =>
    rw [List.foldl_cons, ih, get?_addType, List.reverse_cons, List.find?_append]
    by_cases he : e.2.OffersUnder k
    · cases types.reverse.find? fun e ↦ decide (e.2.OffersUnder k) <;> simp [he]
    · cases types.reverse.find? fun e ↦ decide (e.2.OffersUnder k) <;> simp [he]

theorem get?_scan (libraries : List Library) (k : String) :
    (scan libraries).types.get? k =
      ((Library.scanOrder libraries).reverse.find? fun e ↦ e.2.OffersUnder k).map
        fun e ↦ e.2.describe e.1 := by
  rw [scan_eq_foldl, get?_foldl_addType]
  exact Option.or_none

/-- The registry of scanned libraries has an entry under a key exactly if a type is offered under
it, and the entry describes the last such type. -/
theorem scan_spec (libraries : List Library) :
    ((scan libraries).types.entries.Pairwise fun a b ↦ a.1 < b.1) ∧
      ∀ k,
        (((scan libraries).types.get? k).isSome = true ↔
          ∃ l ∈ libraries, ∃ t ∈ l.manifest.types, t.OffersUnder k) ∧
        ∀ d, (scan libraries).types.get? k = some d →
          ∃ module t, IsLast (fun e ↦ e.2.OffersUnder k) (Library.scanOrder libraries) (module, t) ∧
            d.Describes module t := by
  refine ⟨?_, fun k ↦ ⟨?_, fun d hd ↦ ?_⟩⟩
  · rw [scan_eq_foldl]
    refine List.foldlRecOn _ _ (b := empty) (motive := fun r : Registry ↦
      r.types.entries.Pairwise fun a b ↦ a.1 < b.1) List.Pairwise.nil ?_
    exact fun r hr e _ ↦ pairwise_addType hr
  · rw [get?_scan, Option.isSome_map, List.find?_isSome, ← Library.exists_mem_scanOrder]
    simp only [List.mem_reverse, decide_eq_true_eq]
  · rw [get?_scan, Option.map_eq_some_iff] at hd
    obtain ⟨e, he, rfl⟩ := hd
    exact ⟨e.1, e.2, isFirst_reverse.mp (find?_eq_some_iff_isFirst.mp he),
      e.2.describe_describes e.1⟩

end Registry

end ScriptWasm
