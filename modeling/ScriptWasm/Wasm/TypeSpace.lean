import ScriptWasm.Wasm.Types

/-!
# Defined types and subtyping

A module defines its types in groups. Two groups are the same if they look the same, where a
reference to a type outside of the group means that type, and one to the inside means a position.
Then their members are pairwise the same types.

The one decision here is how types are compared. Every index stands for the first index of the same
type, and whatever enters a space has its indices replaced by those. So two types in normal form are
the same exactly if they are equal, and nothing else in the library has to think about groups.
-/

namespace ScriptWasm.Wasm

/-! ## Indices in types -/

/-- Replaces the index in a type. -/
def HeapType.mapIndex (f : Nat → Option Nat) : HeapType → Option HeapType
  | .kind k => some (.kind k)
  | .index i => (f i).map .index

def RefType.mapIndex (f : Nat → Option Nat) (t : RefType) : Option RefType :=
  (t.heap.mapIndex f).map (⟨t.nullable, ·⟩)

def ValType.mapIndex (f : Nat → Option Nat) : ValType → Option ValType
  | .ref type => (type.mapIndex f).map .ref
  | t => some t

def FuncType.mapIndex (f : Nat → Option Nat) (t : FuncType) : Option FuncType := do
  return ⟨← t.params.mapM (ValType.mapIndex f), ← t.results.mapM (ValType.mapIndex f)⟩

def StorageType.mapIndex (f : Nat → Option Nat) : StorageType → Option StorageType
  | .value type => (type.mapIndex f).map .value
  | t => some t

def FieldType.mapIndex (f : Nat → Option Nat) (t : FieldType) : Option FieldType :=
  (t.storage.mapIndex f).map (⟨·, t.isMutable⟩)

def CompositeType.mapIndex (f : Nat → Option Nat) : CompositeType → Option CompositeType
  | .func type => (type.mapIndex f).map .func
  | .struct fields => (fields.mapM (FieldType.mapIndex f)).map .struct
  | .array element => (element.mapIndex f).map .array

def SubType.mapIndex (f : Nat → Option Nat) (t : SubType) : Option SubType := do
  let super? ← match t.super? with
    | some i => (f i).map some
    | none => some none
  return ⟨t.isFinal, super?, ← t.composite.mapIndex f⟩

/-! ## Spaces -/

/-- A type in a space: the first index of the same type, the type in normal form, and how many types
it is below. -/
structure TypeEntry where
  first : Nat
  type : SubType
  depth : Nat
deriving Repr

/-- A group in a space: where it starts, and what it looks like from the inside. -/
structure GroupEntry where
  start : Nat
  shape : TypeGroup
deriving Repr

/-- The types that a module defines, by index. -/
structure TypeSpace where
  types : List TypeEntry
  groups : List GroupEntry
deriving Repr

namespace TypeSpace

def empty : TypeSpace := ⟨[], []⟩

/-- The first index of the type with the given index. -/
def first? (s : TypeSpace) (i : Nat) : Option Nat := s.types[i]?.map TypeEntry.first

def composite? (s : TypeSpace) (i : Nat) : Option CompositeType :=
  s.types[i]?.map (·.type.composite)

/-- The signature with the given index. -/
def func? (s : TypeSpace) (i : Nat) : Option FuncType :=
  match s.composite? i with
  | some (.func t) => some t
  | _ => none

def struct? (s : TypeSpace) (i : Nat) : Option (List FieldType) :=
  match s.composite? i with
  | some (.struct fields) => some fields
  | _ => none

def array? (s : TypeSpace) (i : Nat) : Option FieldType :=
  match s.composite? i with
  | some (.array element) => some element
  | _ => none

/-- The normal form of a type, if everything that it refers to is there. -/
def heap? (s : TypeSpace) (t : HeapType) : Option HeapType := t.mapIndex s.first?
def ref? (s : TypeSpace) (t : RefType) : Option RefType := t.mapIndex s.first?
def val? (s : TypeSpace) (t : ValType) : Option ValType := t.mapIndex s.first?

end TypeSpace

/-! ## Subtyping -/

/-- Whether all of the first kind is of the second kind too. -/
def HeapKind.isBelow (a b : HeapKind) : Bool :=
  a = b ||
    match b with
    | .func => a = .nofunc
    | .external => a = .noexternal
    | .exn => a = .noexn
    | .any => a = .eq || a = .i31 || a = .struct || a = .array || a = .none
    | .eq => a = .i31 || a = .struct || a = .array || a = .none
    | .i31 | .struct | .array => a = .none
    | _ => false

/-- Whether a type of the given form is of a kind. -/
def CompositeType.isOf : CompositeType → HeapKind → Bool
  | .func _, kind => kind = .func
  | .struct _, kind => kind = .struct || kind = .eq || kind = .any
  | .array _, kind => kind = .array || kind = .eq || kind = .any

/-- The kind that only null is of, among the references to a type of the given form. -/
def CompositeType.bottom : CompositeType → HeapKind
  | .func _ => .nofunc
  | _ => .none

/-- The largest kind around a kind. -/
def HeapKind.top : HeapKind → HeapKind
  | .func | .nofunc => .func
  | .external | .noexternal => .external
  | .exn | .noexn => .exn
  | _ => .any

namespace TypeSpace

/-- How many types one type may be below. -/
def deepest : Nat := 63

/-- Whether the type at one index is declared to be at most the type at another, in at most `steps`
steps. -/
def isAtMost (s : TypeSpace) (i j : Nat) : (steps : Nat) → Bool
  | 0 => i = j
  | steps + 1 =>
    i = j ||
      match s.types[i]? with
      | some e =>
        match e.type.super? with
        | some k => s.isAtMost k j steps
        | none => false
      | none => false

/-- Whether a heap type can be used for another. -/
def heapMatches (s : TypeSpace) : HeapType → HeapType → Bool
  | .kind a, .kind b => a.isBelow b
  | .index i, .kind b => (s.composite? i).any (·.isOf b)
  | .kind a, .index j => (s.composite? j).any (a = ·.bottom)
  | .index i, .index j => s.isAtMost i j (deepest + 1)

def refMatches (s : TypeSpace) (a b : RefType) : Bool :=
  (b.nullable || !a.nullable) && s.heapMatches a.heap b.heap

/-- Whether a value of one type can be used where one of another is expected. -/
def valMatches (s : TypeSpace) : ValType → ValType → Bool
  | .ref a, .ref b => s.refMatches a b
  | a, b => a = b

/-- Whether lists of values match, one by one. -/
def allMatch (s : TypeSpace) (as bs : List ValType) : Bool :=
  as.length = bs.length && (as.zip bs).all fun (a, b) ↦ s.valMatches a b

def storageMatches (s : TypeSpace) : StorageType → StorageType → Bool
  | .value a, .value b => s.valMatches a b
  | a, b => a = b

/-- What can be changed may stand for what cannot be, not the other way round. -/
def fieldMatches (s : TypeSpace) (a b : FieldType) : Bool :=
  (b.isMutable || !a.isMutable) && s.storageMatches a.storage b.storage

/-- Whether a form may be declared to be below another. A function may take more and give less; a
structure may have further fields. -/
def compositeMatches (s : TypeSpace) : CompositeType → CompositeType → Bool
  | .func a, .func b => s.allMatch b.params a.params && s.allMatch a.results b.results
  | .struct as, .struct bs =>
    bs.length ≤ as.length && (as.zip bs).all fun (a, b) ↦ s.fieldMatches a b
  | .array a, .array b => s.fieldMatches a b
  | _, _ => false

/-- The largest kind around a heap type. -/
def top (s : TypeSpace) : HeapType → HeapKind
  | .kind k => k.top
  | .index i => (s.composite? i).elim .any fun
    | .func _ => .func
    | _ => .any

/-! ## Adding groups -/

/-- Bounds on the parts of a type. -/
def mostParams : Nat := 1000
def mostResults : Nat := 1000
def mostFields : Nat := 10000

def isModest : CompositeType → Bool
  | .func t => t.params.length ≤ mostParams && t.results.length ≤ mostResults
  | .struct fields => fields.length ≤ mostFields
  | .array _ => true

/-- A group that starts at an index, in normal form: indices outside of it are replaced. -/
def normalGroup? (s : TypeSpace) (group : TypeGroup) : Option TypeGroup :=
  let start := s.types.length
  group.mapM (SubType.mapIndex fun i ↦
    if i < start then s.first? i else if i < start + group.length then some i else none)

/-- What a group in normal form looks like from the inside: indices inside of it are odd. -/
def shape (start : Nat) (group : TypeGroup) : TypeGroup :=
  let inside (i : Nat) : Option Nat := some (if i < start then 2 * i else 2 * (i - start) + 1)
  (group.mapM (SubType.mapIndex inside)).getD []

/-- How many types a type is below, if it may be below what it is declared to be. -/
def depthOf? (s : TypeSpace) (t : SubType) : Option Nat :=
  match t.super? with
  | none => some 0
  | some i => do
    let above ← s.types[i]?
    guard (!above.type.isFinal && above.depth < deepest &&
      s.compositeMatches t.composite above.type.composite)
    return above.depth + 1

/-- Works out the depths of types from an index on, each of which can be below earlier ones only. -/
def settleDepths (s : TypeSpace) : (index count : Nat) → Option TypeSpace
  | _, 0 => some s
  | index, count + 1 => do
    let e ← s.types[index]?
    let depth ← s.depthOf? e.type
    settleDepths { s with types := s.types.set index { e with depth := depth } } (index + 1) count

/-- Adds a group, if it is well-formed. -/
def add? (s : TypeSpace) (group : TypeGroup) : Option TypeSpace := do
  guard (group.all (isModest ·.composite))
  let start := s.types.length
  guard (group.zipIdx.all fun (t, i) ↦ t.super?.all (· < start + i))
  let normal ← s.normalGroup? group
  let look := shape start normal
  match s.groups.find? (·.shape = look) with
  | some g => return { s with types := s.types ++ (s.types.drop g.start).take group.length }
  | none =>
    let entries := normal.zipIdx.map fun (t, i) ↦ ⟨start + i, t, 0⟩
    settleDepths ⟨s.types ++ entries, ⟨start, look⟩ :: s.groups⟩ start group.length

/-- The space of groups, if all are well-formed. -/
def ofGroups? (groups : List TypeGroup) : Option TypeSpace := groups.foldlM add? empty

end TypeSpace

end ScriptWasm.Wasm
