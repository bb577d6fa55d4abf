import ScriptWasm.Wasm.Assignment
import ScriptWasm.Wasm.Section
import ScriptWasm.Wasm.Typing

/-!
# Valid modules

A module is valid if its sections come in order, everything that is referred to is there, and all
code has the type that it is declared with. Some sizes are bounded, so that not everything that
could be meant can be used.

Validity is checked in two steps. The first collects what code can refer to, with all types in
normal form; it fails if a type refers to what is not there. The second checks everything else
against that.
-/

namespace ScriptWasm.Wasm

/-! ## Bounds -/

def mostLocals : Nat := 50000
def mostBranches : Nat := 7654321
def mostTables : Nat := 100
def mostMemories : Nat := 100
def mostPages : Nat := 65536
def mostWidePages : Nat := 0x1000000000000
def mostTableEntries : Nat := 10000000
def mostDefinitions : Nat := 1000000
def mostSegments : Nat := 100000

/-- What the types of imports and exports may amount to. -/
def mostTypeSize : Nat := 1000000

/-! ## What a module consists of -/

namespace Section

/-- Sections that are not custom come in the order of their ranks. -/
def rank : Section → Nat
  | .custom .. => 0
  | .types .. => 1
  | .imports .. => 2
  | .functions .. => 3
  | .tables .. => 4
  | .memories .. => 5
  | .tags .. => 6
  | .globals .. => 7
  | .exports .. => 8
  | .start .. => 9
  | .elements .. => 10
  | .dataCount .. => 11
  | .code .. => 12
  | .data .. => 13

end Section

namespace Module

/-- Whether the sections are in order, none of them twice. -/
def isOrdered (m : Module) : Bool :=
  let ranks := (m.map Section.rank).filter (· ≠ 0)
  (ranks.zip (ranks.drop 1)).all fun (a, b) ↦ a < b

def typeGroups (m : Module) : List TypeGroup := m.flatMap fun | .types gs => gs | _ => []
def imports (m : Module) : List Import := m.flatMap fun | .imports is => is | _ => []
def functions (m : Module) : List Nat := m.flatMap fun | .functions ts => ts | _ => []
def tables (m : Module) : List Table := m.flatMap fun | .tables ts => ts | _ => []
def memories (m : Module) : List MemoryType := m.flatMap fun | .memories ms => ms | _ => []
def tags (m : Module) : List Nat := m.flatMap fun | .tags ts => ts | _ => []
def globals (m : Module) : List Global := m.flatMap fun | .globals gs => gs | _ => []
def exports (m : Module) : List Export := m.flatMap fun | .exports es => es | _ => []
def elements (m : Module) : List Element := m.flatMap fun | .elements es => es | _ => []
def codes (m : Module) : List Code := m.flatMap fun | .code cs => cs | _ => []
def data (m : Module) : List Data := m.flatMap fun | .data ds => ds | _ => []
def start? (m : Module) : Option Nat := m.findSome? fun | .start f => some f | _ => none
def dataCount? (m : Module) : Option Nat := m.findSome? fun | .dataCount n => some n | _ => none

/-- What is imported, by the kind of it. -/
def importedFunctions (m : Module) : List Nat :=
  m.imports.filterMap fun i ↦ match i.type with | .function t => some t | _ => none
def importedTables (m : Module) : List TableType :=
  m.imports.filterMap fun i ↦ match i.type with | .table t => some t | _ => none
def importedMemories (m : Module) : List MemoryType :=
  m.imports.filterMap fun i ↦ match i.type with | .memory t => some t | _ => none
def importedGlobals (m : Module) : List GlobalType :=
  m.imports.filterMap fun i ↦ match i.type with | .global t => some t | _ => none
def importedTags (m : Module) : List Nat :=
  m.imports.filterMap fun i ↦ match i.type with | .tag t => some t | _ => none

end Module

/-! ## References to functions outside of code -/

/-- The functions that instructions without bodies refer to. -/
def referredFunctions (body : List Instr) : List Nat :=
  body.filterMap fun | .refFunc f => some f | _ => none

def ElementItems.referred : ElementItems → List Nat
  | .functions indices => indices
  | .expressions _ items => items.flatMap referredFunctions

def ElementItems.type : ElementItems → RefType
  | .functions _ => .nonNull .func
  | .expressions type _ => type

/-! ## What code can refer to -/

/-- The normal forms of types that hold others. -/
def TableType.normal? (s : TypeSpace) (t : TableType) : Option TableType :=
  (s.ref? t.element).map fun element ↦ { t with element := element }
def GlobalType.normal? (s : TypeSpace) (t : GlobalType) : Option GlobalType :=
  (s.val? t.value).map fun value ↦ { t with value := value }

/-- What exceptions carry whose tag has the type with an index: tags have no results. -/
def TypeSpace.carried? (s : TypeSpace) (i : Nat) : Option (List ValType) := do
  let t ← s.func? i
  guard t.results.isEmpty
  return t.params

namespace Module

/-- A reference can be taken to a function that is exported, or stored in a segment, a table or a
global. -/
def referable (m : Module) : List Nat :=
  (m.exports.filterMap fun e ↦ if e.kind = .function then some e.index else none) ++
    m.elements.flatMap (·.items.referred) ++
    m.tables.flatMap (fun t ↦ referredFunctions (t.start?.getD [])) ++
    m.globals.flatMap (referredFunctions ·.start)

/-- What code outside of functions can refer to. -/
def context? (m : Module) : Option Context := do
  let types ← TypeSpace.ofGroups? m.typeGroups
  let functions ← (m.importedFunctions ++ m.functions).mapM fun i ↦
    (types.func? i).bind fun _ ↦ types.first? i
  let tables ← (m.importedTables ++ m.tables.map Table.type).mapM (TableType.normal? types)
  let globals ← (m.importedGlobals ++ m.globals.map Global.type).mapM (GlobalType.normal? types)
  let tags ← (m.importedTags ++ m.tags).mapM types.carried?
  let elements ← m.elements.mapM fun e ↦ types.ref? e.items.type
  return {
    types := types
    functions := functions
    tables := tables
    memories := m.importedMemories ++ m.memories
    globals := globals
    tags := tags
    elements := elements
    dataCount? := m.dataCount?
    referable := m.referable
    locals := []
    results := [] }

end Module

/-! ## The parts of a module -/

/-- Whether the upper limit, if there is one, is not below the lower one. -/
def Limits.isOrdered (l : Limits) : Bool := l.max?.all (l.min ≤ ·)

/-- Tables may be bounded by any number. -/
def TableType.isValid (t : TableType) : Bool :=
  t.limits.isOrdered && t.limits.min ≤ mostTableEntries

/-- Shared memories are bounded. -/
def MemoryType.isValid (t : MemoryType) : Bool :=
  let most := if t.limits.isWide then mostWidePages else mostPages
  t.limits.isOrdered && t.limits.min ≤ most && t.limits.max?.all (· ≤ most) &&
    (!t.isShared || t.limits.max?.isSome)

def isValidName (name : String) : Bool := name.utf8ByteSize ≤ longestName

/-- Instructions on structures and arrays that can be evaluated before a module runs. -/
def Aggregate.isConstant : Aggregate → Bool
  | .structNew _ => true
  | .structNewDefault _ => true
  | .arrayNew _ => true
  | .arrayNewDefault _ => true
  | .arrayNewFixed .. => true
  | _ => false

/-- Instructions that can be evaluated before a module runs. Globals that such an expression reads
cannot change. -/
def Instr.isConstant (c : Context) : Instr → Bool
  | .i32Const _ => true
  | .i64Const _ => true
  | .f32Const _ => true
  | .f64Const _ => true
  | .vector (.const _) => true
  | .refNull _ => true
  | .refFunc _ => true
  | .refI31 => true
  | .anyOfExtern => true
  | .externOfAny => true
  | .aggregate i => i.isConstant
  | .globalGet i => c.globals[i]?.any (!·.isMutable)
  | .numeric code => [0x6a, 0x6b, 0x6c, 0x7c, 0x7d, 0x7e].contains code
  | _ => false

/-- An expression that has a value of the given type before the module runs. -/
def isConstantOf (c : Context) (type : ValType) (body : List Instr) : Bool :=
  body.all (·.isConstant c) && checkBody { c with results := [type] } body

/-- Tables are filled before there are globals other than the imported ones. A table that is not
filled holds null. -/
def Table.isValid (c : Context) (imported : List GlobalType) (t : Table) : Bool :=
  t.type.isValid &&
    match t.start?, c.types.ref? t.type.element with
    | none, some element => element.nullable
    | some start, some element => isConstantOf { c with globals := imported } (.ref element) start
    | _, none => false

def Element.isValid (c : Context) (e : Element) : Bool :=
  (match c.types.ref? e.items.type, e.mode with
    | some type, .active index offset =>
      match c.tables[index]? with
      | some table =>
        c.types.refMatches type table.element &&
          isConstantOf c table.limits.addressType offset
      | none => false
    | some _, _ => true
    | none, _ => false) &&
    match e.items with
    | .functions indices => indices.all (· < c.functions.length)
    | .expressions type items =>
      match c.types.ref? type with
      | some type => items.all (isConstantOf c (.ref type))
      | none => false

def Data.isValid (c : Context) (d : Data) : Bool :=
  match d.mode with
  | .active index offset =>
    match c.memories[index]? with
    | some memory => isConstantOf c memory.limits.addressType offset
    | none => false
  | _ => true

def Import.isValid (i : Import) : Bool :=
  isValidName i.module && isValidName i.field &&
    match i.type with
    | .table t => t.isValid
    | .memory t => t.isValid
    | _ => true

def Export.isValid (c : Context) (e : Export) : Bool :=
  isValidName e.name &&
    match e.kind with
    | .function => e.index < c.functions.length
    | .table => e.index < c.tables.length
    | .memory => e.index < c.memories.length
    | .global => e.index < c.globals.length
    | .tag => e.index < c.tags.length

mutual

/-- Whether no table of branches is too long. -/
def Instr.branchesAreFew : Instr → Bool
  | .block _ body => branchesAreFew body
  | .loop _ body => branchesAreFew body
  | .ifThen _ yes => branchesAreFew yes
  | .ifElse _ yes no => branchesAreFew yes && branchesAreFew no
  | .tryTable _ _ body => branchesAreFew body
  | .brTable depths _ => depths.length ≤ mostBranches
  | _ => true

def branchesAreFew : List Instr → Bool
  | [] => true
  | i :: rest => i.branchesAreFew && branchesAreFew rest

end

/-- A function body has the signature of its function, and reads no local too early. -/
def Code.isValid (c : Context) (type : FuncType) (code : Code) : Bool :=
  let count := type.params.length + code.locals.foldr (fun g n ↦ g.1 + n) 0
  if count ≤ mostLocals then
    match code.locals.mapM fun (n, t) ↦ (c.types.val? t).map fun t ↦ List.replicate n t with
    | some groups =>
      let locals := type.params ++ groups.flatten
      branchesAreFew code.body && setsBeforeReading type.params.length locals code.body &&
        checkBody { c with locals := locals, results := type.results } code.body
    | none => false
  else false

/-- The globals of a module read only those in front of them; there are `before` in front of the
first. -/
def globalsAreValid (c : Context) : Nat → List Global → Bool
  | _, [] => true
  | before, g :: rest =>
    (match c.globals[before]? with
      | some type => isConstantOf { c with globals := c.globals.take before } type.value g.start
      | none => false) &&
      globalsAreValid c (before + 1) rest

/-! ## The size of types -/

def FuncType.size (t : FuncType) : Nat := 2 + t.params.length + t.results.length

/-- The size of the type of something that is imported. -/
def ExternType.size (c : Context) : ExternType → Nat
  | .function t | .tag t => (c.types.func? t).elim 1 FuncType.size
  | _ => 1

/-- The size of the type of something that is exported. -/
def Export.size (c : Context) (e : Export) : Nat :=
  match e.kind with
  | .function => (c.function? e.index).elim 1 FuncType.size
  | .tag => (c.tags[e.index]?).elim 1 fun params ↦ 2 + params.length
  | _ => 1

/-- What the types of imports and exports amount to. -/
def Module.typeSize (m : Module) (c : Context) : Nat :=
  m.exports.foldr (fun e n ↦ e.size c + n) (m.imports.foldr (fun i n ↦ i.type.size c + n) 1)

/-! ## Validity -/

namespace Module

/-- Whether nothing is too large. -/
def isModest (m : Module) (c : Context) : Bool :=
  c.types.types.length ≤ mostDefinitions && m.imports.length ≤ mostDefinitions &&
    c.functions.length ≤ mostDefinitions && c.tables.length ≤ mostTables &&
    c.memories.length ≤ mostMemories && c.tags.length ≤ mostDefinitions &&
    c.globals.length ≤ mostDefinitions && m.exports.length ≤ mostDefinitions &&
    m.elements.length ≤ mostSegments && m.data.length ≤ mostSegments &&
    m.typeSize c < mostTypeSize

def isValid (m : Module) : Bool :=
  match m.context? with
  | none => false
  | some c =>
    let defined := c.functions.drop m.importedFunctions.length
    m.isOrdered && m.isModest c &&
      m.imports.all Import.isValid &&
      m.tables.all (Table.isValid c (c.globals.take m.importedGlobals.length)) &&
      m.memories.all MemoryType.isValid &&
      globalsAreValid c m.importedGlobals.length m.globals &&
      m.exports.all (Export.isValid c) && (m.exports.map Export.name).Nodup &&
      m.start?.all (fun f ↦ c.function? f = some ⟨[], []⟩) &&
      m.elements.all (Element.isValid c) &&
      m.dataCount?.all (· = m.data.length) &&
      m.codes.length = m.functions.length &&
      (defined.zip m.codes).all (fun (t, code) ↦ (c.types.func? t).any (code.isValid c ·)) &&
      m.data.all (Data.isValid c)

end Module

end ScriptWasm.Wasm
