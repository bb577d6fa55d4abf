import ScriptWasm.Program.Parse
import ScriptWasm.Proofs.Json.Reading
import ScriptWasm.Proofs.Program.Parts

/-!
# Programs are read as they are written

A program that is written as JSON and read again is the same program, up to spans that say nothing.
The form of a tree is a stack of forms, each of which reads what nests one level less, so the proof
is an induction on levels: a form reads a tree if the form below it reads what is in the tree. A
written tree has enough levels, because the number of brackets around a value bounds them.

Statements are read in two steps. Their members are buffered, and only the span is read where it
stands; then the kind is picked out and decides what the other members are. Since the buffer is a
value like any other, the same rules hold for both steps.
-/

namespace ScriptWasm

open Json LawfulSource

variable {R : Type → Type} [Source R] [LawfulSource R]

/-! ## Expressions -/

/-- The numbers of an expression can be read from their texts. -/
def Expr.IsFaithful (e : Expr) : Prop := ∀ x, .number x ∈ e.parts → (Number.float x).IsReadable

theorem BinaryOp.reads_form (op : BinaryOp) :
    Reads (R := R) BinaryOp.form (.string op.word) op := by
  cases op <;> exact variant_unit rfl

namespace Expr

theorem toValues_eq_map (es : List Expr) : toValues es = es.map toValue := by
  induction es with
  | nil => rfl
  | cons e rest ih => rw [toValues, ih, List.map_cons]

theorem mem_exprsParts {es : List Expr} {e part : Expr} (he : e ∈ es) (hpart : part ∈ e.parts) :
    part ∈ exprsParts es := by
  induction es with
  | nil => cases he
  | cons e' rest ih =>
    rw [exprsParts, List.mem_append]
    rcases List.mem_cons.mp he with rfl | he
    · exact .inl hpart
    · exact .inr (ih he)

theorem toValue_ne_null (e : Expr) : e.toValue ≠ .null := by
  cases e <;> exact Value.noConfusion

theorem depth_pos (e : Expr) : 0 < e.toValue.depth := by
  cases e <;> exact Nat.succ_pos _

theorem reads_list {item : R Expr} {es : List Expr} {n : Nat}
    (hitem : ∀ e ∈ es, e.toValue.depth ≤ n → Reads item e.toValue e)
    (hdepth : itemsDepth (toValues es) ≤ n) :
    Reads (Source.list item) (.array (toValues es)) es := by
  rw [toValues_eq_map] at hdepth ⊢
  refine list_map fun e he ↦ hitem e he ?_
  exact Nat.le_trans (depth_le_of_mem_items (List.mem_map_of_mem he)) hdepth

end Expr

theorem reads_elementFields {label array : String} {expr : R Expr} {v : Value}
    {indices : List Expr} (h : Reads (Source.list expr) v indices) :
    Reads (elementFields label expr) (.object [("array", .string array), ("indices", v)])
      (array, indices) := by
  refine fields (by simp [Member.needed]) ?_
  exact .needed (text _) <| .needed h .nil

theorem reads_memberFields {label member type name : String} (hmember : member ≠ "type") :
    Reads (R := R) (memberFields label member)
      (.object [("type", .string type), (member, .string name)]) (type, name) := by
  refine fields (by simp [Member.needed, hmember.symm]) ?_
  exact .needed (text _) <| .needed (text _) .nil

theorem fills_callMembers {type method : String} {expr : R Expr} {v : Value} {args : List Expr}
    (h : Reads (Source.list expr) v args) :
    Fills Reads (callMembers expr) ("", "", [])
      [("type", .string type), ("method", .string method), ("args", v)] (type, method, args) :=
  .needed (text _) <| .needed (text _) <| .defaulted h .nil

omit [LawfulSource R] in
theorem nodup_callMembers (expr : R Expr) : ((callMembers expr).map (·.name)).Nodup := by
  simp [callMembers, Member.needed, Member.defaulted]

namespace Expr

/-- An expression is read by a form for at least as many levels as its value nests. -/
theorem reads_formWithin {e : Expr} (he : e.IsFaithful) {steps : Nat}
    (hdepth : e.toValue.depth ≤ steps) : Reads (R := R) (formWithin steps) e.toValue e := by
  induction steps generalizing e with
  | zero => exact absurd e.depth_pos (Nat.not_lt.mpr hdepth)
  | succ steps ih =>
    cases e with
    | number x =>
      exact variant_single rfl (LawfulSource.map _ (double (he x List.mem_cons_self)))
    | text s => exact variant_single rfl (LawfulSource.map _ (LawfulSource.text s))
    | «variable» name => exact variant_single rfl (LawfulSource.map _ (LawfulSource.text name))
    | index array indices =>
      have hindices : ∀ e ∈ indices, e.IsFaithful := fun e hmem x hx ↦
        he x (List.mem_cons_of_mem _ (mem_exprsParts hmem hx))
      simp only [toValue, Value.depth, membersDepth] at hdepth
      have hlist := reads_list (fun e hmem ↦ ih (hindices e hmem)) (by omega)
      exact variant_fields rfl
        (LawfulSource.map _ (a := (array, indices)) (reads_elementFields hlist))
    | property type name =>
      exact variant_fields rfl
        (LawfulSource.map _ (a := (type, name)) (reads_memberFields (by decide)))
    | call type method args =>
      have hargs : ∀ e ∈ args, e.IsFaithful := fun e hmem x hx ↦
        he x (List.mem_cons_of_mem _ (mem_exprsParts hmem hx))
      simp only [toValue, Value.depth, membersDepth] at hdepth
      have hlist := reads_list (fun e hmem ↦ ih (hargs e hmem)) (by omega)
      exact variant_fields rfl (LawfulSource.map _ (a := (type, method, args))
        (fields (nodup_callMembers _) (fills_callMembers hlist)))
    | binary op left right =>
      have hleft : left.IsFaithful := fun x hx ↦
        he x (List.mem_cons_of_mem _ (List.mem_append_left _ hx))
      have hright : right.IsFaithful := fun x hx ↦
        he x (List.mem_cons_of_mem _ (List.mem_append_right _ hx))
      simp only [toValue, Value.depth, membersDepth] at hdepth
      refine variant_fields rfl (LawfulSource.map _ (a := (op, left, right)) ?_)
      refine fields (by simp [binaryMembers, Member.needed]) ?_
      refine .needed op.reads_form ?_
      exact .needed (ih hleft (by omega)) <| .needed (ih hright (by omega)) .nil
    | negate operand =>
      have hoperand : operand.IsFaithful := fun x hx ↦ he x (List.mem_cons_of_mem _ hx)
      simp only [toValue, Value.depth, membersDepth] at hdepth
      exact variant_single rfl (LawfulSource.map _ (ih hoperand (by omega)))

theorem reads_form {e : Expr} (he : e.IsFaithful) (hdepth : e.toValue.depth ≤ maxLevels) :
    Reads (R := R) form e.toValue e := reads_formWithin he hdepth

end Expr

/-! ## Targets -/

/-- The expressions that a target is written with. -/
def Target.written : Target → List Expr
  | .index _ indices => indices
  | _ => []

theorem Target.reads_form {t : Target} (ht : ∀ e ∈ t.written, e.IsFaithful)
    (hdepth : t.toValue.depth ≤ maxLevels) : Reads (R := R) form t.toValue t := by
  cases t with
  | «variable» name => exact variant_single rfl (LawfulSource.map _ (text name))
  | index array indices =>
    have hindices : ∀ e ∈ indices, e.IsFaithful := ht
    simp only [toValue, Value.depth, membersDepth] at hdepth
    have hlist : Reads (R := R) (Source.list Expr.form) _ indices :=
      Expr.reads_list (fun e he ↦ Expr.reads_form (hindices e he)) (by omega)
    exact variant_fields rfl
      (LawfulSource.map _ (a := (array, indices)) (reads_elementFields hlist))
  | property type name =>
    exact variant_fields rfl
      (LawfulSource.map _ (a := (type, name)) (reads_memberFields (by decide)))
  | event type name =>
    exact variant_fields rfl
      (LawfulSource.map _ (a := (type, name)) (reads_memberFields (by decide)))

/-! ## Spans -/

namespace Span

/-- Lines and columns are words. -/
def Fits (s : Span) : Prop :=
  s.line < UInt32.size ∧ s.column < UInt32.size ∧ s.endLine < UInt32.size ∧
    s.endColumn < UInt32.size

instance (s : Span) : Decidable s.Fits :=
  inferInstanceAs (Decidable (s.line < UInt32.size ∧ s.column < UInt32.size ∧
    s.endLine < UInt32.size ∧ s.endColumn < UInt32.size))

/-- A span without a line says nothing. -/
def normal (s : Span) : Span := if s.isUnknown then unknown else s

theorem reads_form {s : Span} (hs : s.Fits) : Reads (R := R) form s.toValue s := by
  obtain ⟨hline, hcolumn, hendLine, hendColumn⟩ := hs
  refine record (by simp [members, Member.defaulted]) ?_
  refine .defaulted (word32 hline) <| .defaulted (word32 hcolumn) ?_
  exact .defaulted (word32 hendLine) <| .defaulted (word32 hendColumn) .nil

/-- A span that says nothing is left out, and what is left out is unknown. -/
theorem fills_spanEntries {s : Span} (hs : s.Fits) :
    Fills (Reads (R := R)) [.defaulted "span" form fun s _ ↦ s] unknown (Stmt.spanEntries s)
      s.normal := by
  rw [Stmt.spanEntries, normal]
  split
  · exact .omitted rfl .nil
  · exact .defaulted (reads_form hs) .nil

end Span

/-! ## Statements -/

namespace Stmt

mutual

/-- A statement without spans that say nothing. -/
def normal : Stmt → Stmt
  | .assign target value span => .assign target value span.normal
  | .call type method args span => .call type method args span.normal
  | .cond condition body arms otherwise span =>
    .cond condition (normals body) (normalArms arms) (normals otherwise) span.normal
  | .while condition body span => .while condition (normals body) span.normal
  | .for name start stop step body span => .for name start stop step (normals body) span.normal
  | .goto name span => .goto name span.normal
  | .label name span => .label name span.normal
  | .sub name body span => .sub name (normals body) span.normal
  | .callSub name span => .callSub name span.normal
  | .empty span => .empty span.normal

def normals : List Stmt → List Stmt
  | [] => []
  | s :: rest => s.normal :: normals rest

def normalArms : List Arm → List Arm
  | [] => []
  | .mk condition body :: rest => .mk condition (normals body) :: normalArms rest

end

/-- The expressions that a statement is written with, apart from those of nested statements. -/
def written : Stmt → List Expr
  | .assign target value _ => value :: target.written
  | .call _ _ args _ => args
  | .cond condition _ arms _ _ => condition :: arms.map Arm.condition
  | .while condition _ _ => [condition]
  | .for _ start stop step _ _ => start :: stop :: step.toList
  | _ => []

/-- The statements that stand directly in a statement. -/
def nested : Stmt → List Stmt
  | .cond _ body arms otherwise _ => body ++ arms.flatMap Arm.body ++ otherwise
  | .while _ body _ => body
  | .for _ _ _ _ body _ => body
  | .sub _ body _ => body
  | _ => []

/-- The span of a statement can be written, and the numbers in it can be read from their texts. -/
structure IsFaithful (s : Stmt) : Prop where
  span : s.span.Fits
  written : ∀ e ∈ s.written, e.IsFaithful

theorem normals_eq_map (body : List Stmt) : normals body = body.map normal := by
  induction body with
  | nil => rfl
  | cons s rest ih => rw [normals, ih, List.map_cons]

theorem toValues_eq_map (body : List Stmt) : toValues body = body.map toValue := by
  induction body with
  | nil => rfl
  | cons s rest ih =>
    rw [toValues, ih, List.map_cons]
    rfl

theorem reads_list {item : R Stmt} {body : List Stmt}
    (hitem : ∀ s ∈ body, Reads item s.toValue s.normal) :
    Reads (Source.list item) (.array (toValues body)) (normals body) := by
  rw [toValues_eq_map, normals_eq_map]
  exact LawfulSource.list hitem

/-! ### Arms -/

/-- An arm of a conditional as it is written. -/
def armValue (a : Arm) : Value :=
  .object [("condition", a.condition.toValue), ("body", .array (toValues a.body))]

theorem armValues_eq_map (arms : List Arm) : armValues arms = arms.map armValue := by
  induction arms with
  | nil => rfl
  | cons a rest ih =>
    cases a
    rw [armValues, ih, List.map_cons]
    rfl

theorem normalArms_eq_map (arms : List Arm) :
    normalArms arms = arms.map fun a ↦ .mk a.condition (normals a.body) := by
  induction arms with
  | nil => rfl
  | cons a rest ih =>
    cases a
    rw [normalArms, ih, List.map_cons]
    rfl

theorem reads_arms {stmt : Decoder Stmt} {arms : List Arm}
    (hconditions : ∀ a ∈ arms, a.condition.IsFaithful)
    (hbodies : ∀ a ∈ arms, ∀ s ∈ a.body, Reads stmt s.toValue s.normal)
    (hdepth : itemsDepth (armValues arms) ≤ maxLevels) :
    Reads (Source.list (armForm stmt)) (.array (armValues arms)) (normalArms arms) := by
  rw [armValues_eq_map] at hdepth ⊢
  rw [normalArms_eq_map]
  refine LawfulSource.list fun a ha ↦ ?_
  have harm : (armValue a).depth ≤ maxLevels :=
    Nat.le_trans (depth_le_of_mem_items (List.mem_map_of_mem ha)) hdepth
  simp only [armValue, Value.depth, membersDepth] at harm
  have hcondition : Reads (R := Decoder) Expr.form a.condition.toValue a.condition :=
    Expr.reads_form (hconditions a ha) (by omega)
  refine LawfulSource.map _ (a := (a.condition, normals a.body)) ?_
  refine record (by simp [Member.needed]) ?_
  exact .needed hcondition <| .needed (reads_list (hbodies a ha)) .nil

/-! ### Kinds -/

/-- The members behind the kind are passed on as they are. -/
theorem takeKind_rest {options : List (String × Parts)} {parts : Parts}
    {rest : List (String × Value)} (hrest : ∀ e ∈ rest, e.1 ≠ "stmt")
    (others : List (String × Value)) :
    takeKind options (some parts) others rest = .ok (parts, others.reverse ++ rest) := by
  induction rest generalizing others with
  | nil => rw [takeKind, List.append_nil]
  | cons e rest ih =>
    rw [takeKind, if_neg (hrest e List.mem_cons_self),
      ih fun e' he' ↦ hrest e' (List.mem_cons_of_mem e he'), List.reverse_cons, List.append_assoc]
    rfl

variable {stmt : Decoder Stmt} {kind : String} {rest : List (String × Value)} {span : Span}

/-- A statement whose other members are read by the parts of its kind. -/
theorem reads_of_parts {parts : Parts} {make : Span → Stmt}
    (hkind : (kinds stmt).lookup kind = some parts) (hparts : parts rest = .ok make)
    (hnames : ∀ e ∈ rest, e.1 ≠ "stmt" ∧ e.1 ≠ "span") (hreadable : ∀ e ∈ rest, e.2.IsReadable)
    (hspan : span.Fits) :
    Reads (R := R) (formWith stmt)
      (.object ((("stmt", .string kind) :: rest) ++ spanEntries span)) (make span.normal) := by
  have hmembers : ofMembers stmt span.normal (("stmt", .string kind) :: rest) =
      .ok (make span.normal) := by
    -- the kind comes first, and what is behind it is left to the parts of that kind
    have htaken : takeKind (kinds stmt) none [] (("stmt", .string kind) :: rest) =
        .ok (parts, rest) := by
      have hform : kindForm (kinds stmt) (.string kind) = .ok parts := by rw [kindForm, hkind]
      rw [takeKind, if_pos rfl]
      simp only [Option.isSome_none, Bool.false_eq_true, if_false, hform, ok_bind]
      exact takeKind_rest (fun e he ↦ (hnames e he).1) []
    rw [ofMembers, htaken, ok_bind]
    simp only [hparts, ok_bind]
    rfl
  refine gathered (by simp [Member.defaulted]) (Span.fills_spanEntries hspan) ?_ hmembers
  intro e he
  rcases List.mem_cons.mp he with rfl | he
  · exact ⟨by simp [Member.defaulted], .string kind⟩
  · exact ⟨by simpa [Member.defaulted] using (hnames e he).2, hreadable e he⟩

/-- A statement whose other members are those of a record. -/
theorem reads_of_fills {σ : Type} {blank s : σ} {members : List (Member Decoder σ)}
    {make : σ → Span → Stmt}
    (hkind : (kinds stmt).lookup kind =
      some fun entries ↦ make <$> Decoder.ofObject blank members entries)
    (hnodup : (members.map (·.name)).Nodup) (hfills : Fills Reads members blank rest s)
    (hnames : ∀ e ∈ rest, e.1 ≠ "stmt" ∧ e.1 ≠ "span") (hspan : span.Fits) {made : Stmt}
    (hmade : make s span.normal = made) :
    Reads (R := R) (formWith stmt)
      (.object ((("stmt", .string kind) :: rest) ++ spanEntries span)) made := by
  subst hmade
  refine reads_of_parts hkind ?_ hnames ?_ hspan
  · have hobject := Decoder.ofObject_of_fills hnodup (hfills.imp fun _ _ _ _ ↦ And.right)
    simp only [hobject]
    rfl
  · exact hfills.forall_entries fun _ _ _ ↦ isReadable

/-- A statement is read if the statements in it are. -/
theorem reads_formWith {s : Stmt} (hs : s.IsFaithful) (hdepth : s.toValue.depth ≤ maxLevels)
    (hnested : ∀ s' ∈ s.nested, Reads stmt s'.toValue s'.normal) :
    Reads (R := R) (formWith stmt) s.toValue s.normal := by
  obtain ⟨hspan, hwritten⟩ := hs
  have hentries : membersDepth s.entries + 1 ≤ maxLevels := by
    rw [toValue, Value.depth, membersDepth_append] at hdepth
    omega
  cases s with
  | assign target value span =>
    simp only [entries, membersDepth] at hentries
    have htarget : Reads (R := Decoder) Target.form target.toValue target :=
      Target.reads_form (fun e he ↦ hwritten e (List.mem_cons_of_mem _ he)) (by omega)
    have hvalue : Reads (R := Decoder) Expr.form value.toValue value :=
      Expr.reads_form (hwritten value List.mem_cons_self) (by omega)
    exact reads_of_fills rfl (by simp [Member.needed]) (.needed htarget <| .needed hvalue .nil)
      (by simp) hspan rfl
  | call type method args span =>
    simp only [entries, Value.depth, membersDepth] at hentries
    have hargs : Reads (R := Decoder) (Source.list Expr.form) _ args :=
      Expr.reads_list (fun e he ↦ Expr.reads_form (hwritten e he)) (by omega)
    exact reads_of_fills rfl (nodup_callMembers _) (fills_callMembers hargs) (by simp) hspan rfl
  | cond condition body arms otherwise span =>
    simp only [entries, Value.depth, membersDepth] at hentries
    have hcondition : Reads (R := Decoder) Expr.form condition.toValue condition :=
      Expr.reads_form (hwritten condition List.mem_cons_self) (by omega)
    have hbody : ∀ s ∈ body, Reads stmt s.toValue s.normal := fun s hs ↦
      hnested s (List.mem_append_left _ (List.mem_append_left _ hs))
    have harms : Reads (Source.list (armForm stmt)) _ (normalArms arms) :=
      reads_arms (fun a ha ↦ hwritten _ (List.mem_cons_of_mem _ (List.mem_map_of_mem ha)))
        (fun a ha s hs ↦ hnested s (List.mem_append_left _ (List.mem_append_right _
          (List.mem_flatMap.mpr ⟨a, ha, hs⟩)))) (by omega)
    have hotherwise : ∀ s ∈ otherwise, Reads stmt s.toValue s.normal := fun s hs ↦
      hnested s (List.mem_append_right _ hs)
    exact reads_of_fills rfl (by simp [Member.needed, Member.defaulted])
      (.needed hcondition <| .needed (reads_list hbody) <| .defaulted harms <|
        .defaulted (reads_list hotherwise) .nil) (by simp) hspan rfl
  | «while» condition body span =>
    simp only [entries, membersDepth] at hentries
    have hcondition : Reads (R := Decoder) Expr.form condition.toValue condition :=
      Expr.reads_form (hwritten condition List.mem_cons_self) (by omega)
    exact reads_of_fills rfl (by simp [Member.needed])
      (.needed hcondition <| .needed (reads_list hnested) .nil) (by simp) hspan rfl
  | «for» name start stop step body span =>
    simp only [entries, membersDepth] at hentries
    have hstart : Reads (R := Decoder) Expr.form start.toValue start :=
      Expr.reads_form (hwritten start List.mem_cons_self) (by omega)
    have hstop : Reads (R := Decoder) Expr.form stop.toValue stop :=
      Expr.reads_form (hwritten stop (List.mem_cons_of_mem _ List.mem_cons_self)) (by omega)
    have hstep : Reads (R := Decoder) (Source.optional Expr.form)
        ((step.map Expr.toValue).getD .null) step := by
      cases step with
      | none => exact optional_none _
      | some e =>
        -- an expression is never written as null, which would be taken for an absent step
        rw [Option.map_some, Option.getD_some] at hentries ⊢
        have hmem : e ∈ start :: stop :: [e] := by simp
        exact optional_some e.toValue_ne_null (Expr.reads_form (hwritten e hmem) (by omega))
    exact reads_of_fills rfl (by simp [Member.needed, Member.defaulted])
      (.needed (text name) <| .needed hstart <| .needed hstop <| .defaulted hstep <|
        .needed (reads_list hnested) .nil) (by simp) hspan rfl
  | goto name span =>
    exact reads_of_fills rfl (by simp [Member.needed]) (.needed (text name) .nil) (by simp) hspan
      rfl
  | label name span =>
    exact reads_of_fills rfl (by simp [Member.needed]) (.needed (text name) .nil) (by simp) hspan
      rfl
  | sub name body span =>
    exact reads_of_fills rfl (by simp [Member.needed])
      (.needed (text name) <| .needed (reads_list hnested) .nil) (by simp) hspan rfl
  | callSub name span =>
    exact reads_of_fills rfl (by simp [Member.needed]) (.needed (text name) .nil) (by simp) hspan
      rfl
  | empty span =>
    exact reads_of_parts rfl rfl (List.forall_mem_nil _) (List.forall_mem_nil _) hspan

/-! ### Levels -/

theorem mem_parts_self (s : Stmt) : s ∈ s.parts := by
  cases s <;> exact List.mem_cons_self

theorem mem_stmtsParts {body : List Stmt} {s part : Stmt} (hs : s ∈ body) (hpart : part ∈ s.parts) :
    part ∈ stmtsParts body := by
  induction body with
  | nil => cases hs
  | cons s' rest ih =>
    rw [stmtsParts, List.mem_append]
    rcases List.mem_cons.mp hs with rfl | hs
    · exact .inl hpart
    · exact .inr (ih hs)

theorem mem_armsParts {arms : List Arm} {a : Arm} {s part : Stmt} (ha : a ∈ arms) (hs : s ∈ a.body)
    (hpart : part ∈ s.parts) : part ∈ armsParts arms := by
  induction arms with
  | nil => cases ha
  | cons a' rest ih =>
    obtain ⟨condition, body⟩ := a'
    rw [armsParts, List.mem_append]
    rcases List.mem_cons.mp ha with rfl | ha
    · exact .inl (mem_stmtsParts hs hpart)
    · exact .inr (ih ha)

theorem mem_parts_of_nested {s s' part : Stmt} (hs' : s' ∈ s.nested) (hpart : part ∈ s'.parts) :
    part ∈ s.parts := by
  cases s with
  | cond condition body arms otherwise span =>
    refine List.mem_cons_of_mem _ ?_
    rw [List.mem_append, List.mem_append]
    rcases List.mem_append.mp hs' with hs' | hs'
    · rcases List.mem_append.mp hs' with hs' | hs'
      · exact .inl (.inl (mem_stmtsParts hs' hpart))
      · obtain ⟨a, ha, hs'⟩ := List.mem_flatMap.mp hs'
        exact .inl (.inr (mem_armsParts ha hs' hpart))
    · exact .inr (mem_stmtsParts hs' hpart)
  | «while» condition body span => exact List.mem_cons_of_mem _ (mem_stmtsParts hs' hpart)
  | «for» name start stop step body span =>
    exact List.mem_cons_of_mem _ (mem_stmtsParts hs' hpart)
  | sub name body span => exact List.mem_cons_of_mem _ (mem_stmtsParts hs' hpart)
  | _ => cases hs'

theorem depth_le_of_mem {body : List Stmt} {s : Stmt} (hs : s ∈ body) :
    s.toValue.depth ≤ itemsDepth (toValues body) := by
  rw [toValues_eq_map]
  exact depth_le_of_mem_items (List.mem_map_of_mem hs)

/-- Statements in a statement nest less. -/
theorem depth_lt_of_nested {s s' : Stmt} (hs' : s' ∈ s.nested) :
    s'.toValue.depth < s.toValue.depth := by
  have hentries : membersDepth s.entries < s.toValue.depth := by
    rw [toValue, Value.depth, membersDepth_append]
    omega
  cases s with
  | cond condition body arms otherwise span =>
    simp only [entries, Value.depth, membersDepth] at hentries
    rcases List.mem_append.mp hs' with hs' | hs'
    · rcases List.mem_append.mp hs' with hs' | hs'
      · have := depth_le_of_mem hs'
        omega
      · obtain ⟨a, ha, hs'⟩ := List.mem_flatMap.mp hs'
        have harm : (armValue a).depth ≤ itemsDepth (armValues arms) := by
          rw [armValues_eq_map]
          exact depth_le_of_mem_items (List.mem_map_of_mem ha)
        simp only [armValue, Value.depth, membersDepth] at harm
        have := depth_le_of_mem hs'
        omega
    · have := depth_le_of_mem hs'
      omega
  | «while» condition body span =>
    simp only [entries, Value.depth, membersDepth] at hentries
    have hmem : s' ∈ body := hs'
    have := depth_le_of_mem hmem
    omega
  | «for» name start stop step body span =>
    simp only [entries, Value.depth, membersDepth] at hentries
    have hmem : s' ∈ body := hs'
    have := depth_le_of_mem hmem
    omega
  | sub name body span =>
    simp only [entries, Value.depth, membersDepth] at hentries
    have hmem : s' ∈ body := hs'
    have := depth_le_of_mem hmem
    omega
  | _ => cases hs'

/-- A buffered statement is read with at least as many levels as its value nests. -/
theorem reads_decodeWithin {s : Stmt} (hs : ∀ part ∈ s.parts, part.IsFaithful) {steps : Nat}
    (hsteps : steps ≤ maxLevels) (hdepth : s.toValue.depth ≤ steps) :
    Reads (decodeWithin steps) s.toValue s.normal := by
  induction steps generalizing s with
  | zero =>
    rw [toValue, Value.depth] at hdepth
    cases hdepth
  | succ steps ih =>
    refine reads_formWith (hs s s.mem_parts_self) (Nat.le_trans hdepth hsteps) fun s' hs' ↦ ?_
    refine ih (fun part hpart ↦ hs part (mem_parts_of_nested hs' hpart)) (by omega) ?_
    have := depth_lt_of_nested hs'
    omega

theorem reads_form {s : Stmt} (hs : ∀ part ∈ s.parts, part.IsFaithful)
    (hdepth : s.toValue.depth ≤ maxLevels) : Reads (R := R) form s.toValue s.normal := by
  refine reads_formWith (hs s s.mem_parts_self) hdepth fun s' hs' ↦ ?_
  -- only the outermost statement is read from the source; those in it are read from the buffer
  refine reads_decodeWithin (fun part hpart ↦ hs part (mem_parts_of_nested hs' hpart))
    (Nat.le_refl _) ?_
  exact Nat.le_trans (Nat.le_of_lt (depth_lt_of_nested hs')) hdepth

end Stmt

/-! ## Programs -/

/-- The number that an expression is. -/
def Expr.number? : Expr → Option Binary64
  | .number x => some x
  | _ => none

namespace Program

/-- A program without spans that say nothing. -/
def normal (p : Program) : Program := ⟨p.symbols, Stmt.normals p.body⟩

/-- The numbers that a program is written with. -/
def numbers (p : Program) : List Binary64 :=
  p.statements.flatMap fun s ↦ (exprsParts s.written).filterMap Expr.number?

theorem isFaithful_of_mem {p : Program} (hspans : ∀ s ∈ p.statements, s.span.Fits)
    (hnumbers : ∀ x ∈ p.numbers, Json.read Source.double x.text = .ok x) {s : Stmt}
    (hs : s ∈ p.statements) : s.IsFaithful where
  span := hspans s hs
  written e he x hx := by
    refine Reader.isReadable_float_of_read (hnumbers x ?_)
    refine List.mem_flatMap.mpr ⟨s, hs, ?_⟩
    exact List.mem_filterMap.mpr ⟨.number x, Expr.mem_exprsParts he hx, rfl⟩

theorem reads_declaredForm {p : Program} (hspans : ∀ s ∈ p.statements, s.span.Fits)
    (hnumbers : ∀ x ∈ p.numbers, Json.read Source.double x.text = .ok x)
    (hdepth : p.toValue.depth ≤ maxLevels) :
    Reads (R := R) declaredForm p.toValue ⟨some p.symbols.names, Stmt.normals p.body⟩ := by
  have hbody : ∀ s ∈ p.body, Reads (R := R) Stmt.form s.toValue s.normal := by
    intro s hs
    refine Stmt.reads_form (fun part hpart ↦ ?_) ?_
    · exact isFaithful_of_mem hspans hnumbers (Stmt.mem_stmtsParts hs hpart)
    · simp only [toValue, Value.depth, membersDepth] at hdepth
      have := Stmt.depth_le_of_mem hs
      omega
  refine record (by simp [Member.needed, Member.defaulted]) ?_
  refine .defaulted (optional_some Value.noConfusion (list_map fun name _ ↦ text name)) ?_
  exact .needed (Stmt.reads_list hbody) .nil

/-- A program is written as an object. -/
theorem isBareList_write (p : Program) : isBareList p.toValue.write = false := by
  have hblank : CodePoints.blank.contains '\x7b' = false := by decide
  obtain ⟨rest, htext⟩ : ∃ rest, p.toValue.write.toList = '\x7b' :: rest := by
    rw [toValue, Value.write, String.toList_append, String.toList_append]
    exact ⟨_, rfl⟩
  rw [isBareList, Text.dropBlanks, htext, List.dropWhile_cons, hblank]
  rfl

theorem declareAll_of_nodup {names : List String} (source : SourceText) (table : SymbolTable)
    (hnodup : (table.names ++ names).Nodup) :
    declareAll source names table [] = (⟨table.names ++ names⟩, []) := by
  induction names generalizing table with
  | nil => rw [declareAll, List.append_nil, List.reverse_nil]
  | cons name rest ih =>
    have hnew : table.contains name = false := by
      rw [SymbolTable.contains, List.contains_eq_mem, decide_eq_false_iff_not]
      intro hmem
      exact (List.nodup_append.mp hnodup).2.2 name hmem name List.mem_cons_self rfl
    have hdeclare : table.declare name = ⟨table.names ++ [name]⟩ := by
      rw [SymbolTable.declare, hnew]
      rfl
    rw [declareAll, hnew, hdeclare]
    have hrest := ih ⟨table.names ++ [name]⟩
      (by rwa [List.append_assoc, List.singleton_append])
    rw [List.append_assoc, List.singleton_append] at hrest
    exact hrest

/-- A program that is written and read again is the program, apart from spans that say nothing. Its
variables are told apart, its JSON does not nest too deep, lines and columns are words, and its
numbers can be read from their own texts; there is no condition on texts and names. -/
theorem parse_write {p : Program} (name : String) (hnames : p.symbols.names.Nodup)
    (hdepth : p.toValue.depth < maxLevels) (hspans : ∀ s ∈ p.statements, s.span.Fits)
    (hnumbers : ∀ x ∈ p.numbers, Json.read Source.double x.text = .ok x) :
    parse ⟨name, p.toValue.write⟩ = (some p.normal, []) := by
  have hread : readSource p.toValue.write =
      .ok ⟨some p.symbols.names, Stmt.normals p.body⟩ := by
    rw [readSource, isBareList_write, if_neg Bool.false_ne_true]
    exact Reader.run_of_reads (reads_declaredForm hspans hnumbers (Nat.le_of_lt hdepth)) hdepth
  have hdeclared := declareAll_of_nodup ⟨name, p.toValue.write⟩ .empty hnames
  rw [parse, hread]
  simp only [hdeclared]
  rfl

/-- A program with quotes and escapes in its names, a negative fraction, steps that are given and
absent, empty arms, and a span that has columns but no line. -/
def assorted : Program where
  symbols := ⟨["x", "\"\\\n"]⟩
  body :=
    [.assign (.index "x" [.number ⟨0xBFB999999999999A⟩, .text "é\x01😀"])
        (.binary .notEqual (.negate (.variable "\"\\\n")) (.property "T" "P")) ⟨1, 2, 3, 4⟩,
      .assign (.event "T" "E") (.number ⟨0x7FEFFFFFFFFFFFFF⟩) ⟨0, 7, 0, 9⟩,
      .cond (.call "T" "M" []) [] [.mk (.text "") [.empty .unknown], .mk (.text "") []]
        [.goto "" (.point 5 1)] .unknown,
      .for "x" (.number .zero) (.index "x" []) none [.callSub "s" .unknown] .unknown,
      .for "x" (.number .zero) (.variable "x") (some (.number ⟨1⟩)) [] .unknown,
      .while (.variable "x") [.label "" .unknown] .unknown,
      .sub "s" [.call "T" "M" [.text "[", .text "\x7b"] .unknown] .unknown]

theorem assorted_parse_write :
    assorted.symbols.names.Nodup ∧ assorted.toValue.depth < maxLevels ∧
      (∀ s ∈ assorted.statements, s.span.Fits) ∧
      (∀ x ∈ assorted.numbers, Json.read Source.double x.text = .ok x) ∧
      parse ⟨"", assorted.toValue.write⟩ = (some assorted.normal, []) := by
  have hnames : assorted.symbols.names.Nodup := by decide
  have hdepth : assorted.toValue.depth < maxLevels := by decide
  have hspans : ∀ s ∈ assorted.statements, s.span.Fits := by decide
  have hread : ∀ x ∈ assorted.numbers,
      (Json.read Source.double x.text).toOption = some x := by decide +kernel
  have hnumbers : ∀ x ∈ assorted.numbers, Json.read Source.double x.text = .ok x := by
    intro x hx
    have hsome := hread x hx
    cases hresult : Json.read Source.double x.text with
    | error f => simp [hresult, Except.toOption] at hsome
    | ok y => simpa [hresult, Except.toOption] using hsome
  exact ⟨hnames, hdepth, hspans, hnumbers, parse_write "" hnames hdepth hspans hnumbers⟩

end Program

end ScriptWasm
