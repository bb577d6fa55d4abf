import Mathlib.Data.List.Nodup
import ScriptWasm.Proofs.Library.Binding
import ScriptWasm.Proofs.Library.Scanning

/-!
# Which methods operations are bound to

An operation asks for a method by its name, its parameters and its result. A method that does not
meet all of this, or that cannot be called from outside or without an object, is as good as absent:
operations that the same methods meet, in the same order, are bound alike, whatever stands between
those methods.

Operations are bound one after the other, and the first that nothing meets ends it. Until then every
operation has been met, so the one that is reported is the first of all that nothing meets.
-/

namespace ScriptWasm

/-! ## Steps one after the other -/

/-- Steps for each element of a list fail exactly as the first of them that does. -/
theorem mapM_eq_error_iff {ε α β : Type} {f : α → Except ε β} {l : List α} {e : ε} :
    l.mapM f = .error e ↔
      ∃ before a after, l = before ++ a :: after ∧ f a = .error e ∧
        ∀ b ∈ before, ∃ c, f b = .ok c := by
  induction l with
  | nil => simp [pure, Except.pure]
  | cons a l ih =>
    rw [List.mapM_cons]
    cases ha : f a with
    | error e' =>
      have hfirst : (Except.error e' >>= fun c ↦ l.mapM f >>= fun cs ↦ pure (c :: cs)) = .error e ↔
          e' = e := by simp [bind, Except.bind]
      rw [hfirst]
      constructor
      · rintro rfl
        exact ⟨[], a, l, rfl, ha, fun b hb ↦ absurd hb List.not_mem_nil⟩
      · rintro ⟨before, a', after, hl, ha', hbefore⟩
        -- What comes first fails, so nothing can come before the failure.
        cases before with
        | nil =>
          obtain ⟨rfl, rfl⟩ := List.cons.inj hl
          exact Except.error.inj (ha.symm.trans ha')
        | cons b before =>
          obtain ⟨rfl, -⟩ := List.cons.inj hl
          obtain ⟨c, hc⟩ := hbefore a List.mem_cons_self
          cases ha.symm.trans hc
    | ok c =>
      have hrest : (Except.ok c >>= fun c ↦ l.mapM f >>= fun cs ↦ pure (c :: cs)) = .error e ↔
          l.mapM f = .error e := by
        cases l.mapM f <;> simp [bind, Except.bind, pure, Except.pure]
      rw [hrest, ih]
      constructor
      · rintro ⟨before, a', after, rfl, ha', hbefore⟩
        exact ⟨a :: before, a', after, rfl, ha', List.forall_mem_cons.mpr ⟨⟨c, ha⟩, hbefore⟩⟩
      · rintro ⟨before, a', after, hl, ha', hbefore⟩
        cases before with
        | nil =>
          obtain ⟨rfl, -⟩ := List.cons.inj hl
          cases ha.symm.trans ha'
        | cons b before =>
          obtain ⟨-, rfl⟩ := List.cons.inj hl
          exact ⟨before, a', after, rfl, ha', fun b' hb ↦ hbefore b' (List.mem_cons_of_mem b hb)⟩

/-- There is no second first one. -/
theorem IsFirst.unique {α : Type} {p : α → Prop} {l : List α} {a b : α} (ha : IsFirst p l a)
    (hb : IsFirst p l b) : a = b := by
  classical
  exact Option.some.inj
    ((find?_eq_some_iff_isFirst.mpr ha).symm.trans (find?_eq_some_iff_isFirst.mpr hb))

theorem not_isFirst_of_forall {α : Type} {p : α → Prop} {l : List α} {a : α}
    (h : ∀ b ∈ l, ¬ p b) : ¬ IsFirst p l a := by
  rintro ⟨before, after, rfl, ha, -⟩
  exact h a (List.mem_append_right before List.mem_cons_self) ha

/-! ## Methods that an operation can be bound to -/

/-- A method is what an operation asks for, and can be called without an object from outside. -/
structure Operator.MetBy (op : Operator) (m : MethodDecl) : Prop where
  isPublic : m.isPublic = true
  isStatic : m.isStatic = true
  name : m.name = op.methodName
  params : m.params = op.params
  returns : m.returns = op.returns

namespace Operator

variable {op : Operator} {m : MethodDecl}

theorem fits_iff : op.fits m = true ↔ op.MetBy m := by
  simp only [fits, Bool.and_eq_true, decide_eq_true_eq]
  constructor
  · rintro ⟨⟨⟨⟨hstatic, hpublic⟩, hname⟩, hparams⟩, hreturns⟩
    exact ⟨hpublic, hstatic, hname, hparams, hreturns⟩
  · rintro ⟨hpublic, hstatic, hname, hparams, hreturns⟩
    exact ⟨⟨⟨⟨hstatic, hpublic⟩, hname⟩, hparams⟩, hreturns⟩

instance : DecidablePred op.MetBy := fun _ ↦ decidable_of_iff _ fits_iff

theorem fits_eq : op.fits = (op.MetBy ·) := by
  funext m
  rw [Bool.eq_iff_iff, fits_iff, decide_eq_true_iff]

theorem find?_fits_eq_some_iff {methods : List MethodDecl} :
    methods.find? op.fits = some m ↔ IsFirst op.MetBy methods m := by
  rw [fits_eq]
  exact find?_eq_some_iff_isFirst

theorem find?_fits_eq_none_iff {methods : List MethodDecl} :
    methods.find? op.fits = none ↔ ∀ m ∈ methods, ¬ op.MetBy m := by
  simp only [List.find?_eq_none, fits_iff]

end Operator

/-! ## What is reported -/

/-- No two operations ask for the same. -/
theorem Operator.shape_injective : Function.Injective Operator.shape := by
  have hnodup : (all.map shape).Nodup := by decide +kernel
  exact fun op op' h ↦ List.inj_on_of_nodup_map hnodup op.mem_all op'.mem_all h

/-- The text of a report tells what is missing. -/
theorem BindingError.message_injective : Function.Injective BindingError.message := by
  have hcancel {front back a b : String} (h : front ++ a ++ back = front ++ b ++ back) : a = b :=
    (String.append_right_inj _).mp ((String.append_left_inj _).mp h)
  -- The two kinds of reports differ in their first letter.
  have hkinds {name : String} {op : Operator} :
      (missingPrimitiveType name).message ≠ (missingOperation op).message := by
    have hfirst (front rest : String) (c : Char) (hc : front.toList.head? = some c) :
        (front ++ rest ++ "'").toList.head? = some c ∧
          (front ++ rest ++ "' not found in runtime support library").toList.head? = some c := by
      simp only [String.toList_append, List.head?_append, hc, Option.some_or, and_self]
    intro h
    have hr := (hfirst "runtime support library does not define the primitive type '" name 'r'
      (by decide)).1
    have hp := (hfirst "primitive operation '" op.shape 'p' (by decide)).2
    exact absurd (hr.symm.trans ((congrArg (·.toList.head?) h).trans hp)) (by decide)
  intro e e' h
  cases e with
  | missingPrimitiveType name =>
    cases e' with
    | missingPrimitiveType name' => exact congrArg _ (hcancel h)
    | missingOperation op' => exact absurd h hkinds
  | missingOperation op =>
    cases e' with
    | missingPrimitiveType name' => exact absurd h.symm hkinds
    | missingOperation op' => exact congrArg _ (Operator.shape_injective (hcancel h))

/-! ## Binding -/

namespace Bindings

variable {module : String} {t : TypeDecl} {op : Operator}

theorem bindOne_eq_ok_iff {h : Handle} : bindOne module t op = .ok h ↔
    ∃ m, IsFirst op.MetBy t.methods m ∧ h = handleOf module t.name m := by
  simp only [← Operator.find?_fits_eq_some_iff, bindOne]
  cases t.methods.find? op.fits with
  | none => simp
  | some m => simp [eq_comm]

theorem bindOne_eq_error_iff {e : BindingError} : bindOne module t op = .error e ↔
    e = .missingOperation op ∧ ∀ m ∈ t.methods, ¬ op.MetBy m := by
  rw [← Operator.find?_fits_eq_none_iff, bindOne]
  cases t.methods.find? op.fits with
  | none => simp [eq_comm]
  | some m => simp

theorem exists_bindOne_iff :
    (∃ h, bindOne module t op = .ok h) ↔ ∃ m ∈ t.methods, op.MetBy m := by
  constructor
  · rintro ⟨h, hh⟩
    obtain ⟨m, ⟨before, after, hmethods, hm, -⟩, -⟩ := bindOne_eq_ok_iff.mp hh
    exact ⟨m, hmethods ▸ List.mem_append_right before List.mem_cons_self, hm⟩
  · rintro ⟨m, hm, hmet⟩
    cases hbind : bindOne module t op with
    | error e => exact absurd hmet ((bindOne_eq_error_iff.mp hbind).2 m hm)
    | ok h => exact ⟨h, rfl⟩

/-- Methods that do not meet the operation make no difference. -/
theorem bindOne_congr {t' : TypeDecl} (hname : t'.name = t.name)
    (hmethods : t'.methods.filter (op.MetBy ·) = t.methods.filter (op.MetBy ·)) :
    bindOne module t' op = bindOne module t op := by
  have hfind : t'.methods.find? op.fits = t.methods.find? op.fits := by
    rw [Operator.fits_eq, ← List.head?_filter, ← List.head?_filter, hmethods]
  rw [bindOne, bindOne, hfind, hname]

/-! ## Binding every operation -/

variable {runtime : Library}

/-- The name of the type that holds the operations. -/
def primitiveName (runtime : Library) : String := runtime.manifest.primitive?.getD "Primitive"

theorem findType?_eq_some_iff {manifest : Manifest} {name : String} :
    manifest.findType? name = some t ↔ IsFirst (·.name = name) manifest.types t :=
  find?_eq_some_iff_isFirst

theorem resolve_of_isFirst (h : IsFirst (·.name = primitiveName runtime) runtime.manifest.types t) :
    resolve runtime = ofHandles <$> Operator.all.mapM (bindOne runtime.module t) := by
  have hfind := findType?_eq_some_iff.mpr h
  rw [primitiveName] at hfind
  rw [resolve, hfind]

theorem resolve_of_absent (h : ∀ t ∈ runtime.manifest.types, t.name ≠ primitiveName runtime) :
    resolve runtime = .error (.missingPrimitiveType (primitiveName runtime)) := by
  have hfind : runtime.manifest.findType? (primitiveName runtime) = none := by
    rw [Manifest.findType?, List.find?_eq_none]
    exact fun t ht ↦ by simpa using h t ht
  rw [primitiveName] at hfind ⊢
  rw [resolve, hfind]

/-- Either some type is the first of the name, or none has it. -/
theorem isFirst_or_absent (runtime : Library) :
    (∃ t, IsFirst (·.name = primitiveName runtime) runtime.manifest.types t) ∨
      ∀ t ∈ runtime.manifest.types, t.name ≠ primitiveName runtime := by
  cases hfind : runtime.manifest.findType? (primitiveName runtime) with
  | some t => exact .inl ⟨t, findType?_eq_some_iff.mp hfind⟩
  | none => exact .inr fun t ht ↦ by simpa using List.find?_eq_none.mp hfind t ht

theorem resolve_eq_ok_iff (h : IsFirst (·.name = primitiveName runtime) runtime.manifest.types t) :
    (∃ b, resolve runtime = .ok b) ↔ ∀ op : Operator, ∃ m ∈ t.methods, op.MetBy m := by
  rw [resolve_of_isFirst h]
  refine (SucceedsIff.map (SucceedsIff.mapM fun op _ ↦ exists_bindOne_iff)).trans ?_
  exact ⟨fun hall op ↦ hall op op.mem_all, fun hall op _ ↦ hall op⟩

/-- Each operation is bound to the first method that meets it. -/
theorem handle_of_resolve {b : Bindings}
    (h : IsFirst (·.name = primitiveName runtime) runtime.manifest.types t)
    (hb : resolve runtime = .ok b) (op : Operator) :
    ∃ m, IsFirst op.MetBy t.methods m ∧ b.handle op = handleOf runtime.module t.name m := by
  rw [resolve_of_isFirst h, map_eq_ok_iff] at hb
  obtain ⟨handles, hhandles, rfl⟩ := hb
  obtain ⟨handle, hget, hbind⟩ := (mapM_eq_ok hhandles).2 op.getElem?_index
  obtain ⟨m, hm, rfl⟩ := bindOne_eq_ok_iff.mp hbind
  exact ⟨m, hm, by simp [ofHandles, hget]⟩

/-- What is reported is the first operation that nothing meets. -/
theorem resolve_eq_error_iff
    (h : IsFirst (·.name = primitiveName runtime) runtime.manifest.types t) {e : BindingError} :
    resolve runtime = .error e ↔
      ∃ op, IsFirst (fun op : Operator ↦ ∀ m ∈ t.methods, ¬ op.MetBy m) Operator.all op ∧
        e = .missingOperation op := by
  have hmap : resolve runtime = .error e ↔
      Operator.all.mapM (bindOne runtime.module t) = .error e := by
    rw [resolve_of_isFirst h]
    cases Operator.all.mapM (bindOne runtime.module t) <;> simp [Functor.map, Except.map]
  simp only [hmap, mapM_eq_error_iff, bindOne_eq_error_iff, exists_bindOne_iff]
  constructor
  · rintro ⟨before, op, after, hall, ⟨rfl, hop⟩, hbefore⟩
    refine ⟨op, ⟨before, after, hall, hop, fun op' hop' hunmet ↦ ?_⟩, rfl⟩
    obtain ⟨m, hm, hmet⟩ := hbefore op' hop'
    exact hunmet m hm hmet
  · rintro ⟨op, ⟨before, after, hall, hop, hbefore⟩, rfl⟩
    refine ⟨before, op, after, hall, ⟨rfl, hop⟩, fun op' hop' ↦ ?_⟩
    simpa using hbefore op' hop'

/-- Other methods in the type of the operations make no difference, wherever they stand, as long as
no operation is met by them. -/
theorem resolve_congr {before after : List TypeDecl} {methods : List MethodDecl}
    (htypes : runtime.manifest.types = before ++ t :: after)
    (hname : t.name = primitiveName runtime)
    (hbefore : ∀ u ∈ before, u.name ≠ primitiveName runtime)
    (hmethods : ∀ op : Operator,
      methods.filter (op.MetBy ·) = t.methods.filter (op.MetBy ·)) :
    resolve { runtime with manifest := { runtime.manifest with
      types := before ++ { t with methods := methods } :: after } } = resolve runtime := by
  have hfirst : IsFirst (·.name = primitiveName runtime)
      (before ++ { t with methods := methods } :: after) { t with methods := methods } :=
    ⟨before, after, rfl, hname, hbefore⟩
  have hchanged : resolve { runtime with manifest := { runtime.manifest with
      types := before ++ { t with methods := methods } :: after } } = _ :=
    resolve_of_isFirst hfirst
  rw [hchanged, resolve_of_isFirst ⟨before, after, htypes, hname, hbefore⟩]
  have hbind : bindOne runtime.module { t with methods := methods } = bindOne runtime.module t :=
    funext fun op ↦ bindOne_congr rfl (hmethods op)
  rw [hbind]

/-- **Operations are bound exactly.** They are bound if the first type of the right name has a
public static method for each of them with the name, the parameters and the result that it asks for.
Each is then bound to the first such method, imported from the module of the support library under
the field that the method gives or else under its full name. Methods that meet no operation can be
added and taken away without changing anything. If not all operations are bound, the reason is that
there is no type of that name, or else the first operation that nothing meets, and the two can be
told from each other and from other operations by the text. -/
theorem resolve_exact (runtime : Library) :
    let name := runtime.manifest.primitive?.getD "Primitive"
    let isPrimitive := IsFirst (fun t : TypeDecl ↦ t.name = name) runtime.manifest.types
    ((∃ b, resolve runtime = .ok b) ↔
      ∃ t, isPrimitive t ∧ ∀ op : Operator, ∃ m ∈ t.methods, op.MetBy m) ∧
    (∀ b t, resolve runtime = .ok b → isPrimitive t → ∀ op : Operator,
      ∃ m, IsFirst op.MetBy t.methods m ∧ b.handle op =
        ⟨m.name, ⟨runtime.module, m.field?.getD (t.name ++ "." ++ m.name)⟩, m.params, m.returns⟩) ∧
    (∀ before t after methods, runtime.manifest.types = before ++ t :: after → t.name = name →
      (∀ u ∈ before, u.name ≠ name) →
      (∀ op : Operator, methods.filter (op.MetBy ·) = t.methods.filter (op.MetBy ·)) →
      resolve { runtime with manifest := { runtime.manifest with
        types := before ++ { t with methods := methods } :: after } } = resolve runtime) ∧
    (∀ e, resolve runtime = .error e ↔
      (e = .missingPrimitiveType name ∧ ∀ t ∈ runtime.manifest.types, t.name ≠ name) ∨
      ∃ t op, isPrimitive t ∧
        IsFirst (fun op : Operator ↦ ∀ m ∈ t.methods, ¬ op.MetBy m) Operator.all op ∧
        e = .missingOperation op) ∧
    ∀ e e' : BindingError, e.message = e'.message → e = e' := by
  intro name isPrimitive
  refine ⟨?_, fun b t hb ht op ↦ ?_, fun before t after methods htypes hname hbefore hmethods ↦
    resolve_congr htypes hname hbefore hmethods, fun e ↦ ?_, fun e e' h ↦
    BindingError.message_injective h⟩
  · obtain ⟨t, ht⟩ | habsent := isFirst_or_absent runtime
    · rw [resolve_eq_ok_iff ht]
      exact ⟨fun hmet ↦ ⟨t, ht, hmet⟩, fun ⟨t', ht', hmet⟩ ↦ ht.unique ht' ▸ hmet⟩
    · rw [resolve_of_absent habsent]
      refine ⟨fun ⟨b, hb⟩ ↦ (nomatch hb), fun ⟨t, ht, _⟩ ↦ ?_⟩
      exact absurd ht (not_isFirst_of_forall habsent)
  · exact handle_of_resolve ht hb op
  · obtain ⟨t, ht⟩ | habsent := isFirst_or_absent runtime
    · rw [resolve_eq_error_iff ht]
      constructor
      · rintro ⟨op, hop, rfl⟩
        exact .inr ⟨t, op, ht, hop, rfl⟩
      · rintro (⟨-, habsent⟩ | ⟨t', op, ht', hop, rfl⟩)
        · exact absurd ht (not_isFirst_of_forall habsent)
        · obtain rfl := ht.unique ht'
          exact ⟨op, hop, rfl⟩
    · rw [resolve_of_absent habsent]
      constructor
      · intro he
        exact .inl ⟨(Except.error.inj he).symm, habsent⟩
      · rintro (⟨rfl, -⟩ | ⟨t, op, ht, -⟩)
        · rfl
        · exact absurd ht (not_isFirst_of_forall habsent)

end Bindings

/-! ## A crowded type -/

/-- Methods that look like addition: one that is not public, one that needs an object, and one that
takes a number. -/
def Operator.pretenders : List MethodDecl :=
  [{ add.decl with isPublic := false }, { add.decl with isStatic := false },
    { add.decl with params := [.primitive, .number] }]

/-- The usual type of values with other methods in front. -/
def TypeDecl.crowded : TypeDecl :=
  { TypeDecl.primitive with methods := Operator.pretenders ++ TypeDecl.primitive.methods }

/-- A support library with a type whose name is spelled differently, the usual type with other
methods in front, and an empty type of the same name. -/
def Library.crowded : Library :=
  ⟨"runtime", { types := [{ name := "primitive" }, .crowded, { name := "Primitive" }] }⟩

/-- The same without pretenders, and without the method for `or`. -/
def Library.lacking : Library :=
  ⟨"runtime", { types := [{ name := "primitive" },
    { TypeDecl.primitive with methods := TypeDecl.primitive.methods.filter (·.name ≠ "op_Or") }] }⟩

theorem Operator.not_metBy_pretenders (op : Operator) : ∀ m ∈ pretenders, ¬ op.MetBy m := by
  simp only [pretenders, List.forall_mem_cons]
  refine ⟨fun h ↦ ?_, fun h ↦ ?_, fun h ↦ ?_, fun m hm ↦ absurd hm List.not_mem_nil⟩
  · exact absurd h.isPublic Bool.false_ne_true
  · exact absurd h.isStatic Bool.false_ne_true
  · have hparams : [.primitive, .number] = op.params := h.params
    cases op <;> cases hparams

theorem Operator.metBy_decl (op : Operator) : op.MetBy op.decl := ⟨rfl, rfl, rfl, rfl, rfl⟩

theorem Bindings.resolve_crowded :
    (∃ b m, resolve .crowded = .ok b ∧ IsFirst Operator.add.MetBy TypeDecl.crowded.methods m ∧
      b.handle .add =
        ⟨m.name, ⟨"runtime", m.field?.getD ("Primitive" ++ "." ++ m.name)⟩, m.params, m.returns⟩) ∧
    resolve ⟨"runtime", { types := [.crowded] }⟩ = resolve .support ∧
    resolve .lacking = .error (.missingOperation .or) ∧
    resolve ⟨"runtime", {}⟩ = .error (.missingPrimitiveType "Primitive") := by
  have hfirst (t : TypeDecl) (ht : t.name = "Primitive") (after : List TypeDecl) :
      IsFirst (·.name = "Primitive") ({ name := "primitive" } :: t :: after) t := by
    refine ⟨[{ name := "primitive" }], after, rfl, ht, fun u hu ↦ ?_⟩
    rw [List.mem_singleton.mp hu]
    decide
  refine ⟨?_, ?_, ?_, ?_⟩
  · have hmet (op : Operator) : ∃ m ∈ TypeDecl.crowded.methods, op.MetBy m :=
      ⟨op.decl, List.mem_append_right _ (List.mem_map_of_mem op.mem_all), op.metBy_decl⟩
    obtain ⟨hbound, hhandles, -⟩ := resolve_exact .crowded
    obtain ⟨b, hb⟩ := hbound.mpr ⟨.crowded, hfirst .crowded rfl _, hmet⟩
    obtain ⟨m, hm, hhandle⟩ := hhandles b .crowded hb (hfirst .crowded rfl _) .add
    exact ⟨b, m, hb, hm, hhandle⟩
  · refine (resolve_exact .support).2.2.1 [] .primitive [] TypeDecl.crowded.methods rfl rfl
      (fun u hu ↦ absurd hu List.not_mem_nil) fun op ↦ ?_
    have hnone : Operator.pretenders.filter (op.MetBy ·) = [] :=
      List.filter_eq_nil_iff.mpr fun m hm ↦ by simpa using op.not_metBy_pretenders m hm
    rw [TypeDecl.crowded, List.filter_append, hnone, List.nil_append]
  · refine ((resolve_exact .lacking).2.2.2.1 _).mpr (.inr ⟨_, .or, hfirst _ rfl _, ?_, rfl⟩)
    refine ⟨Operator.all.take 15, [.getElement, .setElement], rfl, fun m hm hmet ↦ ?_,
      fun op hop hunmet ↦ ?_⟩
    · exact of_decide_eq_true (List.mem_filter.mp hm).2 hmet.name
    · have hnames : ∀ op ∈ Operator.all.take 15, op.methodName ≠ "op_Or" := by decide
      exact hunmet op.decl (List.mem_filter.mpr
        ⟨List.mem_map_of_mem op.mem_all, decide_eq_true (hnames op hop)⟩) op.metBy_decl
  · exact ((resolve_exact ⟨"runtime", {}⟩).2.2.2.1 _).mpr (.inl ⟨rfl, fun t ht ↦ nomatch ht⟩)

end ScriptWasm
