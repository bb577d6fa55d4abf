import ScriptWasm.Proofs.Emission.Description

/-!
# The table of imports

A function is imported once, however often it is used: operations first, and behind them the library
members of the program. Their order is that of the tree. A walk in pre-order lists the members that
a program names; it knows nothing of tables, and the imports are what remains of its list when only
the first mention of each function is kept. An index is a position in that list, in code as well as
in metadata.

Signatures are shared between imports. The first one is that of routines, and none is listed twice.
-/

namespace ScriptWasm

open Wasm

/-! ## The members that a program names -/

/-- A way to use a library: to call a method, to read or write a property, or to subscribe to an
event. -/
inductive MemberUse where
  | method (type name : String)
  | getter (type name : String)
  | setter (type name : String)
  | event (type name : String)
deriving DecidableEq, Repr

/-- The function that stands for a member. -/
def Registry.source? (r : Registry) : MemberUse → Option ImportRef
  | .method type name => (r.method? type name).map MethodDescriptor.source
  | .getter type name => (r.property? type name).bind PropertyDescriptor.getter?
  | .setter type name => (r.property? type name).bind PropertyDescriptor.setter?
  | .event type name => (r.event? type name).map EventDescriptor.subscribe

mutual

/-- The members in an expression, in pre-order: a method comes before its arguments. -/
def Expr.members : Expr → List MemberUse
  | .number _ => []
  | .text _ => []
  | .variable _ => []
  | .index _ indices => exprsMembers indices
  | .property type name => [.getter type name]
  | .call type method args => .method type method :: exprsMembers args
  | .binary _ left right => left.members ++ right.members
  | .negate operand => operand.members

def exprsMembers : List Expr → List MemberUse
  | [] => []
  | e :: rest => e.members ++ exprsMembers rest

end

/-- The members in an assignment: the target comes before the value. The handler of an event is a
subroutine. -/
def Target.members (value : Expr) : Target → List MemberUse
  | .variable _ => value.members
  | .index _ indices => exprsMembers indices ++ value.members
  | .property type name => .setter type name :: value.members
  | .event type name => [.event type name]

mutual

/-- The members in a statement, in pre-order. Conditions and bounds come before bodies, and the body
of a subroutine stands where it is declared. -/
def Stmt.members : Stmt → List MemberUse
  | .assign target value _ => target.members value
  | .call type method args _ => .method type method :: exprsMembers args
  | .cond condition body arms otherwise _ =>
    condition.members ++ stmtsMembers body ++ armsMembers arms ++ stmtsMembers otherwise
  | .while condition body _ => condition.members ++ stmtsMembers body
  | .for _ start stop step body _ =>
    start.members ++ stop.members ++ exprsMembers step.toList ++ stmtsMembers body
  | .sub _ body _ => stmtsMembers body
  | .label _ _ => []
  | .goto _ _ => []
  | .callSub _ _ => []
  | .empty _ => []

def stmtsMembers : List Stmt → List MemberUse
  | [] => []
  | s :: rest => s.members ++ stmtsMembers rest

def armsMembers : List Arm → List MemberUse
  | [] => []
  | .mk condition body :: rest => condition.members ++ stmtsMembers body ++ armsMembers rest

end

/-- The members that a program names, in pre-order and with repetitions. -/
def Program.members (p : Program) : List MemberUse := stmtsMembers p.body

/-! ## Members and demands -/

namespace Registry

variable {r : Registry}

/-- All members are found, and their functions are those that are demanded, one by one. -/
def Finds (r : Registry) (members : List MemberUse) (ds : List Demand) : Prop :=
  members.map r.source? = (ds.filterMap Demand.source?).map some

theorem finds_nil : r.Finds [] [] := rfl

theorem Finds.append {members members' : List MemberUse} {ds ds' : List Demand}
    (h : r.Finds members ds) (h' : r.Finds members' ds') :
    r.Finds (members ++ members') (ds ++ ds') := by
  rw [Finds, List.map_append, List.filterMap_append, List.map_append, h, h']

theorem finds_method {type method : String} {given : Nat} {needsValue : Bool}
    (h : r.AdmitsCall type method given needsValue) :
    r.Finds [.method type method] (r.callDemands type method) := by
  obtain ⟨m, hm, -⟩ := h
  simp [Finds, source?, callDemands, hm, Demand.source?, Demand.use?]

theorem finds_getter {type name : String} (h : r.AdmitsGetter type name) :
    r.Finds [.getter type name] (r.getterDemands type name) := by
  obtain ⟨p, hp, hget⟩ := h
  obtain ⟨source, hsource⟩ := Option.isSome_iff_exists.mp hget
  simp [Finds, source?, getterDemands, hp, hsource, Demand.source?, Demand.use?]

theorem finds_setter {type name : String} (h : r.AdmitsSetter type name) :
    r.Finds [.setter type name] (r.setterDemands type name) := by
  obtain ⟨p, hp, hset⟩ := h
  obtain ⟨source, hsource⟩ := Option.isSome_iff_exists.mp hset
  simp [Finds, source?, setterDemands, hp, hsource, Demand.source?, Demand.use?]

mutual

theorem finds_expr {e : Expr} (h : r.AdmitsExpr e) : r.Finds e.members (r.exprDemands e) := by
  match e with
  | .number _ => exact finds_nil
  | .text _ => rfl
  | .variable _ => exact finds_nil
  | .index _ indices => exact finds_exprs h
  | .property type name => exact finds_getter h
  | .call type method args => exact (finds_method h.1).append (finds_exprs h.2)
  | .binary _ left right => exact (finds_expr h.1).append (finds_expr h.2)
  | .negate operand => exact finds_expr (e := operand) h

theorem finds_exprs {es : List Expr} (h : r.AdmitsExprs es) :
    r.Finds (exprsMembers es) (r.exprsDemands es) := by
  match es with
  | [] => exact finds_nil
  | e :: rest => exact (finds_expr h.1).append (finds_exprs h.2)

end

theorem finds_assign {target : Target} {value : Expr} (h : r.AdmitsAssign value target) :
    r.Finds (target.members value) (r.assignDemands value target) := by
  match target with
  | .variable _ => exact finds_expr h
  | .index _ indices => exact (finds_exprs h.1).append (finds_expr h.2)
  | .property type name => exact (finds_setter h.1).append (finds_expr h.2)
  | .event type name =>
    obtain ⟨e, he⟩ := h
    simp [Finds, Target.members, assignDemands, source?, eventDemands, he, Demand.source?,
      Demand.use?]

mutual

theorem finds_stmt {kind : ScopeKind} {s : Stmt} (h : r.AdmitsStmt kind s) :
    r.Finds s.members (r.stmtDemands s) := by
  match s with
  | .assign target value _ => exact finds_assign h
  | .call type method args _ => exact (finds_method h.1).append (finds_exprs h.2)
  | .cond condition body arms otherwise _ =>
    obtain ⟨hcondition, hbody, harms, hotherwise⟩ := h
    exact (((finds_expr hcondition).append (finds_stmts hbody)).append (finds_arms harms)).append
      (finds_stmts hotherwise)
  | .while condition body _ => exact (finds_expr h.1).append (finds_stmts h.2)
  | .for name start stop step body _ =>
    obtain ⟨hstart, hstop, hstep, hbody⟩ := h
    exact (((finds_expr hstart).append (finds_expr hstop)).append (finds_exprs hstep)).append
      (finds_stmts hbody)
  | .sub name body _ =>
    -- Entering and leaving the subroutine are demands, but not for a function.
    have hbody : r.Finds (stmtsMembers body ++ []) (r.stmtsDemands body ++ [.leave]) :=
      (finds_stmts h.2).append rfl
    rwa [List.append_nil] at hbody
  | .label _ _ => rfl
  | .goto _ _ => exact finds_nil
  | .callSub _ _ => exact finds_nil
  | .empty _ => exact finds_nil

theorem finds_stmts {kind : ScopeKind} {body : List Stmt} (h : r.AdmitsStmts kind body) :
    r.Finds (stmtsMembers body) (r.stmtsDemands body) := by
  match body with
  | [] => exact finds_nil
  | s :: rest => exact (finds_stmt h.1).append (finds_stmts h.2)

theorem finds_arms {arms : List Arm} (h : r.AdmitsArms arms) :
    r.Finds (armsMembers arms) (r.armsDemands arms) := by
  match arms with
  | [] => exact finds_nil
  | .mk condition body :: rest =>
    exact ((finds_expr h.1).append (finds_stmts h.2.1)).append (finds_arms h.2.2)

end

end Registry

/-! ## Positions and repetitions -/

namespace Tables

variable {t : Tables}

/-- An index is a position, as long as nothing is imported twice. -/
theorem importIndex?_eq_some_iff (ht : (t.imports.map ImportEntry.source).Nodup)
    {source : ImportRef} {i : Nat} :
    t.importIndex? source = some i ↔ (t.imports.map ImportEntry.source)[i]? = some source := by
  have hindex : t.importIndex? source = (t.imports.map ImportEntry.source).idxOf? source := by
    rw [importIndex?, List.idxOf?, List.findIdx?_map]
    congr 1
  rw [hindex, List.idxOf?_eq_some_iff]
  constructor
  · rintro ⟨hlt, heq, -⟩
    rw [List.getElem?_eq_getElem hlt, heq]
  · intro hget
    obtain ⟨hlt, heq⟩ := List.getElem?_eq_some_iff.mp hget
    refine ⟨hlt, heq, fun j hj hsame ↦ ?_⟩
    exact absurd ((ht.getElem_inj_iff).mp (hsame.trans heq.symm)) (Nat.ne_of_lt hj)

/-- Imports of one signature share its entry. -/
structure SharesSignatures (t : Tables) : Prop where
  nodup : t.signatures.Nodup

namespace SharesSignatures

theorem addSignature (ht : t.SharesSignatures) (type : FuncType) :
    (t.addSignature type).2.SharesSignatures := by
  rw [Tables.addSignature]
  split
  · exact ht
  · rename_i hnone
    have hnew : type ∉ t.signatures := List.idxOf?_eq_none_iff.mp hnone
    refine ⟨?_⟩
    rw [← List.concat_eq_append]
    exact ht.nodup.concat hnew

theorem addImport (ht : t.SharesSignatures) (source : ImportRef) (type : FuncType) :
    (t.addImport source type).2.SharesSignatures := by
  rw [Tables.addImport]
  split
  · exact ht
  · exact ⟨(ht.addSignature type).nodup⟩

theorem addImports (handles : List Handle) (ht : t.SharesSignatures) :
    (handles.foldl (fun t h ↦ (t.addImport h.source h.signature).2) t).SharesSignatures := by
  induction handles generalizing t with
  | nil => exact ht
  | cons h rest ih => exact ih (ht.addImport h.source h.signature)

theorem meet {q q' : Tables × Routine} {d : Demand} (hq : q.1.SharesSignatures)
    (h : meet q d = .ok q') : q'.1.SharesSignatures := by
  obtain ⟨t, routine⟩ := q
  cases d with
  | function source type =>
    rw [Tables.meet, pure_eq_ok_iff] at h
    rw [← h, Tables.addCapability]
    split
    · exact hq
    · exact addImport (t := { t with capabilities := t.capabilities ++ [source] }) ⟨hq.nodup⟩ source
        type
  | _ =>
    -- No other demand touches the signatures.
    cases meets_of_meet h <;> exact ⟨hq.nodup⟩

theorem meetAll {ds : List Demand} {q q' : Tables × Routine} (hq : q.1.SharesSignatures)
    (h : meetAll q ds = .ok q') : q'.1.SharesSignatures :=
  meetAll_induction (fun _ q ↦ q.1.SharesSignatures) (fun hq hd ↦ hq.meet hd) hq h

theorem withSlots (ht : t.SharesSignatures) (names : List String) :
    (t.withSlots names).SharesSignatures := ⟨ht.nodup⟩

end SharesSignatures

theorem sharesSignatures_of_ofProgram {h : Host} {p : Program} (ht : ofProgram h p = .ok t) :
    t.SharesSignatures := by
  obtain ⟨-, -, hm⟩ := ofProgram_eq_ok_iff.mp ht
  have hroutines : (empty.addSignature ⟨[], []⟩).2.SharesSignatures :=
    ⟨List.nodup_singleton _⟩
  have hstart : (start h.operators).SharesSignatures :=
    hroutines.addImports h.operators.handles
  exact (hstart.withSlots p.symbols.names).meetAll hm

/-! ## The table of a program -/

/-- The imports and signatures of tables are determined by the operations and the members that a
program names. -/
structure IsCanonical (t : Tables) (h : Host) (p : Program) : Prop where
  /-- No function is imported twice. -/
  nodup : (t.imports.map ImportEntry.source).Nodup
  /-- The index of an import is its position. -/
  positions : ∀ source i,
    t.importIndex? source = some i ↔ (t.imports.map ImportEntry.source)[i]? = some source
  /-- Operations come first, in their order and without repetitions. -/
  imports : t.imports.map ImportEntry.source = h.operators.sources.eraseDups ++ t.capabilities
  /-- Capabilities are the functions of all members in pre-order. Of a function that is met again
  only the first occurrence is kept, and of one that is an operation none. -/
  capabilities : ∃ sources : List ImportRef, p.members.map h.registry.source? = sources.map some ∧
    t.capabilities = (sources.removeAll h.operators.sources).eraseDups
  nodup_signatures : t.signatures.Nodup
  /-- The first signature is that of routines. -/
  routines : t.signatures[0]? = some ⟨[], []⟩

theorem isCanonical_of_ofProgram {h : Host} {p : Program} (ht : ofProgram h p = .ok t) :
    t.IsCanonical h p := by
  have hlists := lists_of_ofProgram ht
  have hnodup : (t.imports.map ImportEntry.source).Nodup := by
    rw [hlists.imports]
    exact nodup_eraseDups _
  exact
    { nodup := hnodup
      positions := fun _ _ ↦ importIndex?_eq_some_iff hnodup
      imports := by
        rw [hlists.imports, hlists.capabilities, List.eraseDups_append]
      capabilities :=
        ⟨_, Registry.finds_stmts (isFinished_of_ofProgram ht).admitted, hlists.capabilities⟩
      nodup_signatures := (sharesSignatures_of_ofProgram ht).nodup
      routines := signatures_of_ofProgram ht }

end Tables

/-- A host on which a member and an operation are the same function. -/
def Host.chat : Host where
  registry := Registry.empty.insert
    { TypeDescriptor.bare "Chat" false with
      methods := (KeyTable.empty.insert "say" ⟨"Chat", "Say", ⟨"chat", "say"⟩, 1, false⟩).insert
        "join" ⟨"Chat", "Join", ⟨"runtime", "add"⟩, 2, true⟩
      properties := KeyTable.empty.insert "topic"
        ⟨"Chat", "Topic", some ⟨"chat", "topic"⟩, some ⟨"chat", "set_topic"⟩⟩ }
  operators := .usual "runtime"

/-- A program that names members in a subroutine, in arguments and more than once. -/
def Program.chatting : Program where
  symbols := ⟨["x"]⟩
  body :=
    [.sub "greet" [.call "Chat" "Say" [.property "Chat" "Topic"] default] default,
      .assign (.property "Chat" "Topic")
        (.call "Chat" "Join" [.property "Chat" "Topic", .text "!"]) default,
      .call "Chat" "Say" [.variable "x"] default]

theorem Program.chatting_isCanonical : ∃ t, Tables.ofProgram .chat chatting = .ok t ∧
    t.IsCanonical .chat chatting ∧
    t.capabilities = [⟨"chat", "say"⟩, ⟨"chat", "topic"⟩, ⟨"chat", "set_topic"⟩] :=
  ⟨_, rfl, Tables.isCanonical_of_ofProgram rfl, rfl⟩

end ScriptWasm
