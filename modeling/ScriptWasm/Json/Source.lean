import ScriptWasm.Json.Value

/-!
# Where values are read from

The JSON form of a type is written once, for any source of values. There are two sources. A text is
read from front to back, and whatever is wrong with it first is reported, with its place. A value
that has been buffered is a tree already; what is wrong with it has no place of its own.

The two differ in more than places: a text that holds a list where a tagged alternative is expected
breaks the grammar of alternatives, while a buffered list is a value of the wrong type. These
differences are the interface `Source`; the forms of the types do not see them.
-/

namespace ScriptWasm.Json

/-- A named part of a record `σ`. A part that is not required keeps what the blank record holds. -/
structure Member (R : Type → Type) (σ : Type) where
  name : String
  required : Bool
  read : R (σ → σ)

/-- What follows the tag of an alternative: nothing, one value, or the parts of a record. -/
inductive Shape (R : Type → Type) (α : Type) where
  | unit (value : α)
  | single (read : R α)
  | fields (read : R α)

/-- A way of reading values. -/
class Source (R : Type → Type) where
  /-- Refuses whatever is there. -/
  fail {α : Type} : Problem → R α
  map {α β : Type} : (α → β) → R α → R β
  text : R String
  boolean : R Bool
  double : R Binary64
  /-- A natural number below a limit, with the name of the kind of number that is expected. -/
  natural : Nat → String → R Nat
  /-- A value, or null for its absence. -/
  optional {α : Type} : R α → R (Option α)
  list {α : Type} : R α → R (List α)
  /-- A record as an object, or as the list of its parts in order. -/
  record {σ : Type} : String → σ → List (Member R σ) → R σ
  /-- The record behind the tag of an alternative. -/
  fields {σ : Type} : String → σ → List (Member R σ) → R σ
  /-- An object of which some members are known; the others are buffered, and the value is made from
  both. -/
  gathered {σ α : Type} : String → σ → List (Member R σ) →
    (σ → List (String × Value) → Except Problem α) → R α
  /-- A tagged alternative: a tag alone, or an object with the tag as its only key. -/
  variant {α : Type} : List (String × Shape R α) → R α

namespace Source

variable {R : Type → Type} [Source R]

/-- A 32-bit natural number. -/
def word32 : R Nat := natural UInt32.size "u32"

/-- One of a list of tags without contents. -/
def choice {α : Type} (options : List (String × α)) : R α :=
  variant (options.map fun (name, value) ↦ (name, .unit value))

end Source

/-- A part that has to be there. -/
def Member.needed {R : Type → Type} [Source R] {σ α : Type} (name : String) (read : R α)
    (store : α → σ → σ) : Member R σ :=
  ⟨name, true, Source.map store read⟩

/-- A part that may be left out. -/
def Member.defaulted {R : Type → Type} [Source R] {σ α : Type} (name : String) (read : R α)
    (store : α → σ → σ) : Member R σ :=
  ⟨name, false, Source.map store read⟩

/-- How the parts of a record are counted in a message. -/
def partCount (label : String) (n : Nat) : String :=
  label ++ " with " ++ toString n ++ (if n = 1 then " element" else " elements")

/-- The required parts that have not been seen. -/
def firstMissing? {R : Type → Type} {σ : Type} (members : List (Member R σ)) (seen : List String) :
    Option String :=
  (members.find? fun m ↦ m.required && !seen.contains m.name).map (·.name)

end ScriptWasm.Json
