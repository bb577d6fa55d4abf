import ScriptWasm.Json.Source

/-!
# Buffered values

Decoding a value that has been read already. A problem found here has no place; whoever buffered the
value gives it one.
-/

namespace ScriptWasm.Json

/-- A way of decoding a buffered value. -/
abbrev Decoder (α : Type) := Value → Except Problem α

namespace Decoder

/-- The value is not of the kind that is expected. -/
def mismatch {α : Type} (v : Value) (expected : String) : Except Problem α :=
  .error (.invalidType v.found expected)

def text : Decoder String
  | .string s => .ok s
  | v => mismatch v "a string"

def boolean : Decoder Bool
  | .boolean b => .ok b
  | v => mismatch v "a boolean"

/-- The double of an integer literal. -/
def doubleOfInt (n : Int) : Binary64 := withSign (n < 0) (Binary64.ofNat n.natAbs)

def double : Decoder Binary64
  | .number (.integer n) => .ok (doubleOfInt n)
  | .number (.float x) => .ok x
  | v => mismatch v "f64"

/-- An integer literal as a natural number below the limit. -/
def naturalOf (limit : Nat) (expected : String) : Number → Except Problem Nat
  | .integer n =>
    if 0 ≤ n ∧ n < limit then .ok n.toNat else .error (.invalidValue (.integer n) expected)
  | .float x => .error (.invalidType (.float x) expected)

def natural (limit : Nat) (expected : String) : Decoder Nat
  | .number n => naturalOf limit expected n
  | v => mismatch v expected

def optional {α : Type} (item : Decoder α) : Decoder (Option α)
  | .null => .ok none
  | v => (item v).map some

def list {α : Type} (item : Decoder α) : Decoder (List α)
  | .array items => items.mapM item
  | v => mismatch v "a sequence"

/-- Nothing, written as null or as an empty object. -/
def unit : Decoder Unit
  | .null => .ok ()
  | .object [] => .ok ()
  | v => mismatch v "unit"

/-! ## Records -/

/-- Stores the members of an object, in order; `seen` are the names met so far. Members that the
record does not know go to `other`. -/
def storeMembers {σ : Type} (members : List (Member Decoder σ))
    (other : String → Value → σ → σ) (seen : List String) (s : σ) :
    List (String × Value) → Except Problem (σ × List String)
  | [] => .ok (s, seen)
  | (name, v) :: rest =>
    match members.find? (·.name == name) with
    | none => storeMembers members other seen (other name v s) rest
    | some m =>
      if seen.contains name then .error (.duplicateField name)
      else do
        let store ← m.read v
        storeMembers members other (name :: seen) (store s) rest

/-- The record an object holds. -/
def ofObject {σ : Type} (blank : σ) (members : List (Member Decoder σ))
    (entries : List (String × Value)) : Except Problem σ := do
  let (s, seen) ← storeMembers members (fun _ _ ↦ id) [] blank entries
  match firstMissing? members seen with
  | some name => .error (.missingField name)
  | none => .ok s

/-- Stores list items into the parts of a record, in order. -/
def storeItems {σ : Type} (label : String) (count : Nat) (position : Nat) (s : σ) :
    List (Member Decoder σ) → List Value → Except Problem σ
  | [], [] => .ok s
  | [], rest =>
    .error (.invalidLength (position + rest.length)
      (toString position ++ (if position = 1 then " element" else " elements") ++ " in sequence"))
  | m :: members, [] =>
    if m.required then .error (.invalidLength position (partCount label count))
    else storeItems label count (position + 1) s members []
  | m :: members, v :: rest => do
    let store ← m.read v
    storeItems label count (position + 1) (store s) members rest

/-- A record as an object or a list, where `expected` names what should be there. -/
def recordOr {σ : Type} (expected label : String) (blank : σ) (members : List (Member Decoder σ)) :
    Decoder σ
  | .object entries => ofObject blank members entries
  | .array items => storeItems label members.length 0 blank members items
  | v => mismatch v expected

/-- A part of a record beside which other members are kept. -/
def lifted {σ : Type} (m : Member Decoder σ) : Member Decoder (σ × List (String × Value)) :=
  { m with read := fun v ↦ (m.read v).map fun store (s, others) ↦ (store s, others) }

/-- Keeps a member that the record does not know, behind the others. -/
def keep {σ : Type} (name : String) (v : Value) (s : σ × List (String × Value)) :
    σ × List (String × Value) :=
  (s.1, s.2 ++ [(name, v)])

/-- An object of which only some members are known. -/
def gathered {σ α : Type} (label : String) (blank : σ) (members : List (Member Decoder σ))
    (finish : σ → List (String × Value) → Except Problem α) : Decoder α
  | .object entries => do
    let ((s, others), seen) ← storeMembers (members.map lifted) keep [] (blank, []) entries
    match firstMissing? members seen with
    | some name => .error (.missingField name)
    | none => finish s others
  | v => mismatch v label

/-! ## Alternatives -/

/-- What follows a tag, if anything does. -/
def payload {α : Type} : Shape Decoder α → Option Value → Except Problem α
  | .unit a, none => .ok a
  | .unit a, some v => (unit v).map fun _ ↦ a
  | .single read, some v => read v
  | .fields read, some v => read v
  | .single _, none => .error (.invalidType .unitVariant "newtype variant")
  | .fields _, none => .error (.invalidType .unitVariant "struct variant")

/-- The alternative with a given tag. -/
def select {R : Type → Type} {α : Type} (options : List (String × Shape R α)) (name : String) :
    Except Problem (Shape R α) :=
  match options.lookup name with
  | some shape => .ok shape
  | none => .error (.unknownVariant name (options.map (·.1)))

def variant {α : Type} (options : List (String × Shape Decoder α)) : Decoder α
  | .string name => do
    let shape ← select options name
    payload shape none
  | .object [(name, v)] => do
    let shape ← select options name
    payload shape (some v)
  | .object _ => .error (.invalidValue .map "map with a single key")
  | v => mismatch v "string or map"

instance : Source Decoder where
  fail problem := fun _ ↦ .error problem
  map f read := fun v ↦ (read v).map f
  text := text
  boolean := boolean
  double := double
  natural := natural
  optional := optional
  list := list
  record label := recordOr label label
  fields label := recordOr "struct variant" label
  gathered := gathered
  variant := variant

end Decoder

end ScriptWasm.Json
