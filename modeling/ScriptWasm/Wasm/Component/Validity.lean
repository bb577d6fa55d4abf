import ScriptWasm.Wasm.Component.Entity

/-!
# Valid components

The items of a component are checked in order. What is known so far is a `Scope`: each item is
looked at in the scope that those in front of it lead to, and adds to it, or is not valid there.

Components and types inside of others have scopes of their own, and can refer to those around them.
-/

namespace ScriptWasm.Wasm.Component

/-! ## Scopes -/

/-- A type for modules, by its place among those that can refer to each other, or that of a whole
module. -/
inductive KnownCoreType where
  | single (place : Nat)
  | module (type : ModuleType)
deriving Repr

/-- Whether something comes into a component or goes out. -/
inductive Direction where
  | inward
  | outward
deriving DecidableEq, Repr

/-- What a scope is the scope of. -/
inductive Level where
  | component
  | componentType
  | instanceType
deriving DecidableEq, Repr

/-- What is known at some point of a component. -/
structure Scope where
  /-- The types of values in the whole binary. -/
  values : ValueStore
  level : Level
  coreTypes : List KnownCoreType
  space : TypeSpace
  core : List CoreEntity
  coreInstances : List (List (String × CoreEntity))
  things : List Entity
  imports : Named
  exports : Named
  /-- The places of types of values that have names outside. -/
  importable : List Nat
  exportable : List Nat
  /-- The resources that are made here. -/
  resources : List Nat

namespace Scope

def start (values : ValueStore) (level : Level) : Scope :=
  ⟨values, level, [], .empty, [], [], [], [], [], [], [], []⟩

/-- The thing of a kind with an index. -/
def thing? (s : Scope) (kind : Kind) (index : Nat) : Option Entity :=
  (s.things.filter (·.kind? = some kind))[index]?

def core? (s : Scope) (kind : ExternKind) (index : Nat) : Option CoreEntity :=
  (s.core.filter (·.kind = kind))[index]?

def coreFunction? (s : Scope) (index : Nat) : Option FuncType :=
  match s.core? .function index with
  | some (.function t) => some t
  | _ => none

def module? (s : Scope) (index : Nat) : Option ModuleType :=
  match s.thing? .module index with
  | some (_, .module t) => some t
  | _ => none

/-- The place of the type of values, or of the resource, with an index. -/
def value? (s : Scope) (index : Nat) : Option Nat :=
  match s.thing? .type index with
  | some (_, .value place) => some place
  | _ => none

/-- The signature of the function, or the signature that is a type, with an index. -/
def signature? (s : Scope) (kind : Kind) (index : Nat) : Option Signature :=
  match s.thing? kind index with
  | some (_, .func t) => some t
  | _ => none

/-- The identity of the resource with an index. -/
def resource? (s : Scope) (index : Nat) : Option Nat :=
  match (s.value? index).bind (s.values[·]?) with
  | some ⟨.resource identity, _⟩ => some identity
  | _ => none

def add (s : Scope) (e : Entity) : Scope := { s with things := s.things ++ [e] }

def addCore (s : Scope) (e : CoreEntity) : Scope := { s with core := s.core ++ [e] }

/-! ## Going in and out -/

/-- The same thing under another name. A type of values gets another place. -/
def renew (s : Scope) : Entity → Option (Scope × Entity)
  | (true, .value place) => do
    let e ← s.values[place]?
    return ({ s with values := s.values ++ [e] }, (true, .value s.values.length))
  | e => some (s, e)

/-- Something that is referred to, to be known under another name. -/
def target? (s : Scope) (r : Reference) : Option (Scope × Entity) :=
  (s.thing? r.kind r.index).bind s.renew

/-- A type that is a new resource. -/
def newResource (s : Scope) : Scope × Entity :=
  let place := s.values.length
  let entry : ValueEntry := ⟨.resource place, 1⟩
  ({ s with values := s.values ++ [entry] }, (true, .value place))

/-- A thing of a type that is referred to. -/
def ofType? (s : Scope) : Outside → Option (Scope × Entity)
  | .resource => some s.newResource
  | .known ⟨.module, index⟩ =>
    match s.coreTypes[index]? with
    | some (.module t) => some (s, (false, .module t))
    | _ => none
  | .known ⟨.type, index⟩ => s.target? ⟨.type, index⟩
  | .known ⟨kind, index⟩ => do
    let (_, form) ← s.thing? .type index
    guard (form.kind? = some kind)
    return (s, (false, form))

def namedPlaces (s : Scope) : Direction → List Nat
  | .inward => s.importable
  | .outward => s.exportable

/-- Gives a name outside to a place. What comes in can go out. -/
def giveName (s : Scope) (place : Nat) : Direction → Scope
  | .inward => { s with importable := place :: s.importable, exportable := place :: s.exportable }
  | .outward => { s with exportable := place :: s.exportable }

def areNamed (s : Scope) (d : Direction) (types : List ValueType) : Bool :=
  types.all (s.values.isNamed (s.namedPlaces d) s.values.length)

/-- Whether all is made of types with names, if it is not too deep. -/
def isNamed (s : Scope) (d : Direction) : Nat → Form → Bool
  | _, .module _ => true
  | _, .component .. => true
  | _, .func t => s.areNamed d t.parts
  | _, .value place => s.values[place]?.any fun e ↦ s.areNamed d e.form.parts
  | 0, .inst _ => false
  | depth + 1, .inst exports => exports.all fun (_, _, form) ↦ s.isNamed d depth form

/-- Lets something in or out; from then on, the types that come with it have names. -/
def pass (d : Direction) : Nat → Scope → Entity → Option Scope
  | depth + 1, s, (false, .inst exports) => exports.foldlM (fun s (_, e) ↦ pass d depth s e) s
  | _, s, (isType, form) => do
    guard (s.isNamed d deepest form)
    match isType, form with
    | true, .value place => return s.giveName place d
    | _, _ => return s

/-- The place of the resource that values are handles of, to be kept or given back. -/
def owned? (s : Scope) : ValueType → Option Nat
  | .defined i =>
    match s.values[i]? with
    | some ⟨.own (.defined place), _⟩ => some place
    | _ => none
  | .primitive _ => none

def borrowed? (s : Scope) : ValueType → Option Nat
  | .defined i =>
    match s.values[i]? with
    | some ⟨.borrow (.defined place), _⟩ => some place
    | _ => none
  | .primitive _ => none

/-- Whether a thing among others can have a name: one that belongs to a resource is a function, what
makes one returns it, and a method takes it first. -/
def suits (s : Scope) (others : Named) (name : Name) (e : Entity) : Bool :=
  let isOf (resource : String) (place : Nat) : Bool :=
    others.any fun (name, e) ↦
      match e with
      | (true, .value p) => name = resource && p = place
      | _ => false
  match name, e with
  | .label _, _ => true
  | .interface _, _ => true
  | .maker resource, (false, .func t) => (t.result?.bind s.owned?).any (isOf resource)
  | .method resource _, (false, .func ⟨("self", type) :: _, _⟩) =>
    (s.borrowed? type).any (isOf resource)
  | .companion resource _, (false, .func _) =>
    others.any fun (name, e) ↦
      match e with
      | (true, .value p) => name = resource && s.values.isResource (.defined p)
      | _ => false
  | _, _ => false

/-- Makes something known outside under a name, and here. What goes in and out is made of types only
that have names outside; the type of an instance is checked where it is used. -/
def publish (s : Scope) (d : Direction) (name : String) (e : Entity) : Option Scope := do
  let s ← if s.level = .instanceType then some s else pass d deepest s e
  let s := s.add e
  guard (s.suits (if d = .inward then s.imports else s.exports) (← Name.parse? name) e)
  match d with
  | .inward =>
    guard (areNames (name :: s.imports.map Prod.fst))
    return { s with imports := s.imports ++ [(name, e)] }
  | .outward =>
    guard (areNames (name :: s.exports.map Prod.fst))
    return { s with exports := s.exports ++ [(name, e)] }

/-! ## Types and instances for modules -/

/-- A type that is defined elsewhere, if it means the same here. -/
def plain? (t : SubType) : Option SubType := t.mapIndex fun _ ↦ none

/-- Adds types that refer to others by their index in the scope. -/
def addGroup? (s : Scope) (group : TypeGroup) : Option Scope := do
  let start := s.space.types.length
  let count := s.coreTypes.length
  let group ← group.mapM (SubType.mapIndex fun i ↦
    match s.coreTypes[i]? with
    | some (.single place) => some place
    | some (.module _) => none
    | none => some (start + (i - count)))
  let places := (List.range group.length).map fun i ↦ KnownCoreType.single (start + i)
  return { s with space := ← s.space.add? group, coreTypes := s.coreTypes ++ places }

/-- Adds a type from a scope further out. -/
def addOuter? (s outer : Scope) (index : Nat) : Option Scope := do
  match ← outer.coreTypes[index]? with
  | .module t => return { s with coreTypes := s.coreTypes ++ [.module t] }
  | .single place =>
    let e ← outer.space.types[place]?
    s.addGroup? [← plain? e.type]

/-- The type of a module as far as it is declared. -/
structure Sketch where
  types : TypeSpace
  imports : List ((String × String) × CoreEntity)
  exports : List (String × CoreEntity)

/-- Adds a declaration. Types from further out are those of the module itself or of the scope. -/
def declare? (s : Scope) (m : Sketch) : ModuleDeclaration → Option Sketch
  | .group group => do return { m with types := ← m.types.add? group }
  | .outer 0 index => do
    let e ← m.types.types[index]?
    return { m with types := { m.types with types := m.types.types ++ [e] } }
  | .outer 1 index => do
    match ← s.coreTypes[index]? with
    | .single place =>
      let e ← s.space.types[place]?
      return { m with types := ← m.types.add? [← plain? e.type] }
    | .module _ => none
  | .outer .. => none
  | .needs i => do
    let e ← CoreEntity.ofType? m.types i.type
    return { m with imports := m.imports ++ [((i.module, i.field), e)] }
  | .offers name type => do
    let e ← CoreEntity.ofType? m.types type
    return { m with exports := m.exports ++ [(name, e)] }

def moduleType? (s : Scope) (declarations : List ModuleDeclaration) : Option ModuleType := do
  let m ← declarations.foldlM s.declare? ⟨.empty, [], []⟩
  guard ((m.imports.map Prod.fst).Nodup && (m.exports.map Prod.fst).Nodup)
  return ⟨m.imports, m.exports⟩

def coreType? (s : Scope) : CoreType → Option Scope
  | .group group => s.addGroup? group
  | .module declarations => do
    let t ← s.moduleType? declarations
    return { s with coreTypes := s.coreTypes ++ [.module t] }

/-- The exports of an instance of a module. -/
def coreExports? (s : Scope) : CoreInstance → Option (List (String × CoreEntity))
  | .make module arguments => do
    let t ← s.module? module
    let given ← arguments.mapM fun (name, i) ↦ s.coreInstances[i]?.map (name, ·)
    guard (arguments.map Prod.fst).Nodup
    guard (t.imports.all fun ((source, field), expected) ↦
      ((given.lookup source).bind (·.lookup field)).any (·.fits expected))
    return t.exports
  | .gather exports => do
    guard (exports.map Export.name).Nodup
    exports.mapM fun e ↦ (s.core? e.kind e.index).map (e.name, ·)

/-! ## Instances of components -/

/-- The exports of an instance of a component. -/
def instanceExports? (s : Scope) : Instance → Option Named
  | .make component arguments => do
    match ← s.thing? .component component with
    | (_, .component needs exports) =>
      let given ← arguments.mapM fun (name, r) ↦ (s.thing? r.kind r.index).map (name, ·)
      guard (arguments.map Prod.fst).Nodup
      guard (Form.fits.offers s.values deepest given needs)
      return exports
    | _ => none
  | .gather exports => do
    guard (areNames (exports.map Prod.fst))
    exports.mapM fun (name, r) ↦ do
      let e ← s.thing? r.kind r.index
      guard (s.suits [] (← Name.parse? name) e)
      return (name, e)

/-! ## Aliases -/

/-- Adds something that is inside of an instance or outside of the scope, which is the first of the
given ones. -/
def alias? (s : Scope) (around : List Scope) : Alias → Option Scope
  | .part kind inst name => do
    match ← s.thing? .inst inst with
    | (_, .inst exports) =>
      let e ← exports.lookup name
      guard (Entity.kind? e = some kind)
      return s.add e
    | _ => none
  | .corePart kind inst name => do
    let e ← (← s.coreInstances[inst]?).lookup name
    guard (e.kind = kind)
    return s.addCore e
  | .outer kind count index => do
    let scope ← (s :: around)[count]?
    return s.add (← scope.thing? kind index)
  | .outerCoreType 0 index => do
    return { s with coreTypes := s.coreTypes ++ [← s.coreTypes[index]?] }
  | .outerCoreType (count + 1) index => do s.addOuter? (← around[count]?) index

/-! ## Functions between modules and components -/

/-- Whether conventions are enough for a function; `lifted?` is the function of a module that is to
be one of the component. -/
def suffice (s : Scope) (lifted? : Option FuncType) (function : Signature.Lowered)
    (conventions : List Convention) : Bool :=
  let encodings := conventions.filterMap fun | .encoding n => some n | _ => none
  let memories := conventions.filterMap fun | .memory i => some i | _ => none
  let reallocs := conventions.filterMap fun | .realloc f => some f | _ => none
  let returns := conventions.filterMap fun | .postReturn f => some f | _ => none
  encodings.length ≤ 1 && memories.length ≤ 1 && reallocs.length ≤ 1 && returns.length ≤ 1 &&
    memories.all (fun i ↦
      match s.core? .memory i with
      | some (.memory t) => !t.isShared && !t.limits.isWide
      | _ => false) &&
    reallocs.all (fun f ↦ s.coreFunction? f = some ⟨[.i32, .i32, .i32, .i32], [.i32]⟩) &&
    returns.all (fun f ↦ lifted?.any fun t ↦ s.coreFunction? f = some ⟨t.results, []⟩) &&
    (!function.usesMemory || !memories.isEmpty) && (!function.usesRealloc || !reallocs.isEmpty)

def passage? (s : Scope) : Passage → Option Scope
  | .lift function conventions type => do
    let given ← s.coreFunction? function
    let t ← s.signature? .type type
    let expected := t.lowered s.values true
    guard (given = expected.type && s.suffice (some given) expected conventions)
    return s.add (false, .func t)
  | .lower function conventions => do
    let t ← s.signature? .func function
    let made := t.lowered s.values false
    guard (s.suffice none made conventions)
    return s.addCore (.function made.type)
  | .make resource => do
    guard (s.resources.contains (← s.resource? resource))
    return s.addCore (.function ⟨[.i32], [.i32]⟩)
  | .drop resource => do
    let _ ← s.resource? resource
    return s.addCore (.function ⟨[.i32], []⟩)
  | .look resource => do
    guard (s.resources.contains (← s.resource? resource))
    return s.addCore (.function ⟨[.i32], [.i32]⟩)

/-! ## Types of values and functions -/

def valueType? (s : Scope) (form : ValueForm) : Option Scope := do
  guard form.isValid
  let form ← form.mapIndex s.value?
  let size := s.values.sizeOf form.parts
  guard (size < mostTypeSize && form.parts.all (s.values.isResource · = form.isHandle))
  let entry : ValueEntry := ⟨form, size⟩
  return { s with values := s.values ++ [entry] }.add (true, .value s.values.length)

def funcType? (s : Scope) (t : Signature) : Option Scope := do
  guard (areLabels (t.params.map Prod.fst))
  let t ← t.mapIndex s.value?
  guard (s.values.sizeOf t.parts < mostTypeSize && !t.parts.any s.values.isResource &&
    !t.result?.any (s.values.hasBorrow s.values.length))
  return s.add (true, .func t)

/-- Adds a resource that is made here, where it is a number. -/
def resourceType? (s : Scope) (inside : ValType) (destructor? : Option Nat) : Option Scope := do
  guard (s.level = .component && inside = .i32 &&
    destructor?.all fun f ↦ s.coreFunction? f = some ⟨[.i32], []⟩)
  let (s', e) := s.newResource
  return { s' with resources := s.values.length :: s.resources }.add e

end Scope

/-! ## Items -/

mutual

/-- The scope behind items. -/
def run? (around : List Scope) (s : Scope) : List Item → Option Scope
  | [] => some s
  | item :: rest =>
    match step? around s item with
    | some s => run? around s rest
    | none => none

/-- The scope behind an item, which is inside of the scopes `around`. -/
def step? (around : List Scope) (s : Scope) : Item → Option Scope
  | .module m => m.type?.map fun t ↦ s.add (false, .module t)
  | .coreInstance inst =>
    (s.coreExports? inst).map fun exports ↦
      { s with coreInstances := s.coreInstances ++ [exports] }
  | .coreType type => s.coreType? type
  | .component items =>
    match run? (s :: around) (.start s.values .component) items with
    | some inner =>
      some ({ s with values := inner.values }.add (false, .component inner.imports inner.exports))
    | none => none
  | .inst inst => (s.instanceExports? inst).map fun exports ↦ s.add (false, .inst exports)
  | .aliasOf target => s.alias? around target
  | .valueType form => s.valueType? form
  | .funcType type => s.funcType? type
  | .resourceType inside destructor? => s.resourceType? inside destructor?
  | .componentType items =>
    match run? (s :: around) (.start s.values .componentType) items with
    | some inner =>
      some ({ s with values := inner.values }.add (true, .component inner.imports inner.exports))
    | none => none
  | .instanceType items =>
    match run? (s :: around) (.start s.values .instanceType) items with
    | some inner => some ({ s with values := inner.values }.add (true, .inst inner.exports))
    | none => none
  | .passage function => s.passage? function
  | .needs name type => do
    let (s, e) ← s.ofType? type
    s.publish .inward name e
  | .offers name target type? => do
    let (s, e) ← s.target? target
    match type? with
    | none => s.publish .outward name e
    | some type =>
      let (s, declared) ← s.ofType? type
      guard (e.1 = declared.1 && e.2.fits s.values deepest declared.2)
      s.publish .outward name declared
  | .promises name type => do
    let (s, e) ← s.ofType? type
    s.publish .outward name e

end

/-- Whether every item is valid where it stands. -/
def isValid (c : Component) : Bool := (run? [] (.start [] .component) c).isSome

end ScriptWasm.Wasm.Component
