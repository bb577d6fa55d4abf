import ScriptWasm.Text.Bytes
import ScriptWasm.Wasm.Instr

/-!
# Sections and modules

A module is its list of sections. Sections that are not custom occur at most once and in a fixed
order; that is a matter of validity, not of form.
-/

namespace ScriptWasm.Wasm

/-- How many bytes a name may have. -/
def longestName : Nat := 100000

/-- What an import or an export designates. -/
inductive ExternKind where
  | function
  | table
  | memory
  | global
  | tag
deriving DecidableEq, Repr

/-- The type of an import. Functions and tags, which mark exceptions, have the type with the given
index. -/
inductive ExternType where
  | function (type : Nat)
  | table (type : TableType)
  | memory (type : MemoryType)
  | global (type : GlobalType)
  | tag (type : Nat)
deriving DecidableEq, Repr

structure Import where
  module : String
  field : String
  type : ExternType
deriving DecidableEq, Repr

structure Export where
  name : String
  kind : ExternKind
  index : Nat
deriving DecidableEq, Repr

/-- A table, and what it is filled with if that is not null. -/
structure Table where
  type : TableType
  start? : Option (List Instr) := none
deriving Repr

structure Global where
  type : GlobalType
  start : List Instr
deriving Repr

/-- When the contents of a segment are put in place. -/
inductive SegmentMode where
  | passive
  | active (index : Nat) (offset : List Instr)
  | declared
deriving Repr

/-- What a segment puts into a table. -/
inductive ElementItems where
  | functions (indices : List Nat)
  | expressions (type : RefType) (items : List (List Instr))
deriving Repr

structure Element where
  mode : SegmentMode
  items : ElementItems
deriving Repr

structure Data where
  mode : SegmentMode
  bytes : Bytes
deriving Repr

/-- The body of a function. Locals are declared in groups of one type. -/
structure Code where
  locals : List (Nat × ValType)
  body : List Instr
deriving Repr

inductive Section where
  | custom (name : String) (contents : Bytes)
  | types (groups : List TypeGroup)
  | imports (imports : List Import)
  | functions (types : List Nat)
  | tables (tables : List Table)
  | memories (memories : List MemoryType)
  | tags (types : List Nat)
  | globals (globals : List Global)
  | exports (exports : List Export)
  | start (function : Nat)
  | elements (elements : List Element)
  | dataCount (count : Nat)
  | code (codes : List Code)
  | data (segments : List Data)
deriving Repr

abbrev Module := List Section

end ScriptWasm.Wasm
