import ScriptWasm.Wasm.Leb128
import ScriptWasm.Wasm.Section

/-!
# The binary form of modules

Writing is defined by recursion on what is written. Integers are as short as possible, every local
is written in the group that declares it, and segments for tables name their table.
-/

namespace ScriptWasm.Wasm

/-! ## Vectors and names -/

/-- A number of things, and then the things. -/
def encodeVec {α : Type} (write : α → Bytes) (items : List α) : Bytes :=
  Leb128.unsigned items.length ++ items.flatMap write

/-- Bytes behind their number. -/
def encodeBytes (bytes : Bytes) : Bytes := Leb128.unsigned bytes.length ++ bytes

def encodeName (name : String) : Bytes := encodeBytes (bytesOf name)

/-! ## Types -/

def HeapType.encode : HeapType → Bytes
  | .kind k => [k.byte]
  | .index i => Leb128.signed i

/-- Nullable references to kinds have a short form. -/
def RefType.encode (t : RefType) : Bytes :=
  match t with
  | ⟨true, .kind k⟩ => [k.byte]
  | ⟨nullable, heap⟩ => (if nullable then 0x63 else 0x64) :: heap.encode

def ValType.encode : ValType → Bytes
  | .i32 => [0x7f]
  | .i64 => [0x7e]
  | .f32 => [0x7d]
  | .f64 => [0x7c]
  | .v128 => [0x7b]
  | .ref type => type.encode

def FuncType.encode (t : FuncType) : Bytes :=
  0x60 :: encodeVec ValType.encode t.params ++ encodeVec ValType.encode t.results

def StorageType.encode : StorageType → Bytes
  | .i8 => [0x78]
  | .i16 => [0x77]
  | .value type => type.encode

/-- Whether something can be changed. -/
def encodeMutability (isMutable : Bool) : UInt8 := if isMutable then 0x01 else 0x00

def FieldType.encode (t : FieldType) : Bytes := t.storage.encode ++ [encodeMutability t.isMutable]

def CompositeType.encode : CompositeType → Bytes
  | .func type => type.encode
  | .array element => 0x5e :: element.encode
  | .struct fields => 0x5f :: encodeVec FieldType.encode fields

/-- Final types that are below no other have a short form. -/
def SubType.encode (t : SubType) : Bytes :=
  match t with
  | ⟨true, none, composite⟩ => composite.encode
  | ⟨isFinal, super?, composite⟩ =>
    (if isFinal then 0x4f else 0x50) :: encodeVec Leb128.unsigned super?.toList ++ composite.encode

/-- Groups of one type have a short form. -/
def encodeGroup : TypeGroup → Bytes
  | [t] => t.encode
  | group => 0x4e :: encodeVec SubType.encode group

def Limits.encode (l : Limits) (isShared : Bool) : Bytes :=
  let flags : UInt8 :=
    (if l.max?.isSome then 1 else 0) + (if isShared then 2 else 0) + (if l.isWide then 4 else 0)
  flags :: Leb128.unsigned l.min ++ (l.max?.map Leb128.unsigned).getD []

def MemoryType.encode (t : MemoryType) : Bytes := t.limits.encode t.isShared

def TableType.encode (t : TableType) : Bytes := t.element.encode ++ t.limits.encode false

def GlobalType.encode (t : GlobalType) : Bytes :=
  t.value.encode ++ [encodeMutability t.isMutable]

def BlockType.encode : BlockType → Bytes
  | .empty => [0x40]
  | .value t => t.encode
  | .signature index => Leb128.signed index

/-! ## Instructions -/

/-- The value of a word as a signed number. -/
def signedWord (width n : Nat) : Int :=
  if n < Nat.pow 2 (width - 1) then n else (n : Int) - Nat.pow 2 width

/-- The bytes of a word, lowest first. -/
def littleEndian (count n : Nat) : Bytes :=
  (List.range count).map fun i ↦ UInt8.ofNat (n / Nat.pow 256 i % 256)

def MemArg.encode (m : MemArg) : Bytes :=
  if m.memory = 0 then Leb128.unsigned m.align ++ Leb128.unsigned m.offset
  else Leb128.unsigned (m.align + 64) ++ Leb128.unsigned m.memory ++ Leb128.unsigned m.offset

/-- The opcodes that open a block, close it, and separate its two halves. -/
def blockCode : UInt8 := 0x02
def loopCode : UInt8 := 0x03
def ifCode : UInt8 := 0x04
def elseCode : UInt8 := 0x05
def endCode : UInt8 := 0x0b

/-- An instruction behind an opcode with one index. -/
def indexed (code : UInt8) (index : Nat) : Bytes := code :: Leb128.unsigned index

/-- An instruction of the table behind a byte. -/
def coded (table : UInt8) (code : Nat) (rest : Bytes) : Bytes :=
  table :: Leb128.unsigned code ++ rest

/-- An instruction of the extended table. -/
def extended (code : Nat) (arguments : List Nat) : Bytes :=
  coded 0xfc code (arguments.flatMap Leb128.unsigned)

def Catch.encode : Catch → Bytes
  | .tagged tag label withReference =>
    (if withReference then 0x01 else 0x00) :: Leb128.unsigned tag ++ Leb128.unsigned label
  | .all label withReference => (if withReference then 0x03 else 0x02) :: Leb128.unsigned label

/-- The first of three codes, or one of the other two if bits are extended. -/
def extendedCode (code : Nat) : Option Extension → Nat
  | none => code
  | some .signed => code + 1
  | some .unsigned => code + 2

/-- The code of an instruction on structures or arrays, and its indices. -/
def Aggregate.parts : Aggregate → Nat × List Nat
  | .structNew type => (0x00, [type])
  | .structNewDefault type => (0x01, [type])
  | .structGet type field extension? => (extendedCode 0x02 extension?, [type, field])
  | .structSet type field => (0x05, [type, field])
  | .arrayNew type => (0x06, [type])
  | .arrayNewDefault type => (0x07, [type])
  | .arrayNewFixed type count => (0x08, [type, count])
  | .arrayNewData type data => (0x09, [type, data])
  | .arrayNewElement type element => (0x0a, [type, element])
  | .arrayGet type extension? => (extendedCode 0x0b extension?, [type])
  | .arraySet type => (0x0e, [type])
  | .arrayLength => (0x0f, [])
  | .arrayFill type => (0x10, [type])
  | .arrayCopy target source => (0x11, [target, source])
  | .arrayInitData type data => (0x12, [type, data])
  | .arrayInitElement type element => (0x13, [type, element])

def Aggregate.encode (i : Aggregate) : Bytes :=
  coded 0xfb i.parts.1 (i.parts.2.flatMap Leb128.unsigned)

def Vector.encode : Vector → Bytes
  | .plain code => coded 0xfd code []
  | .const bytes => coded 0xfd 0x0c bytes
  | .shuffle lanes => coded 0xfd 0x0d lanes
  | .lane code n => coded 0xfd code [n]
  | .access code m => coded 0xfd code m.encode
  | .laneAccess code m n => coded 0xfd code (m.encode ++ [n])

/-- A code for references that are not null, or the next one for those that may be. -/
def castCode (code : Nat) (t : RefType) : Nat := if t.nullable then code + 1 else code

/-- Which of the two types of a branch on a cast are nullable. -/
def castFlags (source target : RefType) : UInt8 :=
  (if source.nullable then 1 else 0) + (if target.nullable then 2 else 0)

mutual

def Instr.encode : Instr → Bytes
  | .unreachable => [0x00]
  | .nop => [0x01]
  | .block t body => blockCode :: t.encode ++ encodeInstrs body ++ [endCode]
  | .loop t body => loopCode :: t.encode ++ encodeInstrs body ++ [endCode]
  | .ifThen t yes => ifCode :: t.encode ++ encodeInstrs yes ++ [endCode]
  | .ifElse t yes no =>
    ifCode :: t.encode ++ encodeInstrs yes ++ elseCode :: encodeInstrs no ++ [endCode]
  | .tryTable t catches body =>
    0x1f :: t.encode ++ encodeVec Catch.encode catches ++ encodeInstrs body ++ [endCode]
  | .throw tag => indexed 0x08 tag
  | .throwRef => [0x0a]
  | .br depth => indexed 0x0c depth
  | .brIf depth => indexed 0x0d depth
  | .brTable depths last => 0x0e :: encodeVec Leb128.unsigned depths ++ Leb128.unsigned last
  | .brOnNull depth => indexed 0xd5 depth
  | .brOnNonNull depth => indexed 0xd6 depth
  | .brOnCast fails depth source target =>
    coded 0xfb (if fails then 0x19 else 0x18) <|
      castFlags source target :: Leb128.unsigned depth ++ source.heap.encode ++ target.heap.encode
  | .ret => [0x0f]
  | .call f => indexed 0x10 f
  | .callIndirect type table => 0x11 :: Leb128.unsigned type ++ Leb128.unsigned table
  | .callRef type => indexed 0x14 type
  | .returnCall f => indexed 0x12 f
  | .returnCallIndirect type table => 0x13 :: Leb128.unsigned type ++ Leb128.unsigned table
  | .returnCallRef type => indexed 0x15 type
  | .drop => [0x1a]
  | .select => [0x1b]
  | .selectTyped types => 0x1c :: encodeVec ValType.encode types
  | .localGet i => indexed 0x20 i
  | .localSet i => indexed 0x21 i
  | .localTee i => indexed 0x22 i
  | .globalGet i => indexed 0x23 i
  | .globalSet i => indexed 0x24 i
  | .tableGet i => indexed 0x25 i
  | .tableSet i => indexed 0x26 i
  | .load code m => code :: m.encode
  | .store code m => code :: m.encode
  | .memorySize m => indexed 0x3f m
  | .memoryGrow m => indexed 0x40 m
  | .i32Const n => 0x41 :: Leb128.signed (signedWord 32 n.toNat)
  | .i64Const n => 0x42 :: Leb128.signed (signedWord 64 n.toNat)
  | .f32Const bits => 0x43 :: littleEndian 4 bits.toNat
  | .f64Const x => 0x44 :: x.littleEndian
  | .numeric code => [code]
  | .saturate code => extended code []
  | .refNull t => 0xd0 :: t.encode
  | .refIsNull => [0xd1]
  | .refFunc f => indexed 0xd2 f
  | .refEq => [0xd3]
  | .refAsNonNull => [0xd4]
  | .refTest t => coded 0xfb (castCode 0x14 t) t.heap.encode
  | .refCast t => coded 0xfb (castCode 0x16 t) t.heap.encode
  | .anyOfExtern => coded 0xfb 0x1a []
  | .externOfAny => coded 0xfb 0x1b []
  | .refI31 => coded 0xfb 0x1c []
  | .i31Get .signed => coded 0xfb 0x1d []
  | .i31Get .unsigned => coded 0xfb 0x1e []
  | .memoryInit data m => extended 8 [data, m]
  | .dataDrop data => extended 9 [data]
  | .memoryCopy target source => extended 10 [target, source]
  | .memoryFill m => extended 11 [m]
  | .tableInit element table => extended 12 [element, table]
  | .elementDrop element => extended 13 [element]
  | .tableCopy target source => extended 14 [target, source]
  | .tableGrow table => extended 15 [table]
  | .tableSize table => extended 16 [table]
  | .tableFill table => extended 17 [table]
  | .aggregate i => i.encode
  | .vector i => i.encode
  | .atomic code m => coded 0xfe code m.encode
  | .atomicFence => coded 0xfe 0x03 [0x00]

def encodeInstrs : List Instr → Bytes
  | [] => []
  | i :: rest => i.encode ++ encodeInstrs rest

end

/-- Instructions that stand alone, with their end. -/
def encodeExpr (body : List Instr) : Bytes := encodeInstrs body ++ [endCode]

/-! ## Sections -/

def ExternKind.byte : ExternKind → UInt8
  | .function => 0x00
  | .table => 0x01
  | .memory => 0x02
  | .global => 0x03
  | .tag => 0x04

/-- The type of a tag, which marks an exception. -/
def encodeTag (type : Nat) : Bytes := 0x00 :: Leb128.unsigned type

def ExternType.encode : ExternType → Bytes
  | .function type => ExternKind.function.byte :: Leb128.unsigned type
  | .table t => ExternKind.table.byte :: t.encode
  | .memory t => ExternKind.memory.byte :: t.encode
  | .global t => ExternKind.global.byte :: t.encode
  | .tag type => ExternKind.tag.byte :: encodeTag type

def Import.encode (i : Import) : Bytes := encodeName i.module ++ encodeName i.field ++ i.type.encode

def Export.encode (e : Export) : Bytes :=
  encodeName e.name ++ e.kind.byte :: Leb128.unsigned e.index

/-- A table, in front of which a mark stands if it is filled. -/
def Table.encode (t : Table) : Bytes :=
  match t.start? with
  | none => t.type.encode
  | some start => 0x40 :: 0x00 :: t.type.encode ++ encodeExpr start

def Global.encode (g : Global) : Bytes := g.type.encode ++ encodeExpr g.start

def Element.encode (e : Element) : Bytes :=
  match e.items with
  | .functions indices =>
    let items := 0x00 :: encodeVec Leb128.unsigned indices
    match e.mode with
    | .passive => 0x01 :: items
    | .active table offset => 0x02 :: Leb128.unsigned table ++ encodeExpr offset ++ items
    | .declared => 0x03 :: items
  | .expressions type exprs =>
    let items := type.encode ++ encodeVec encodeExpr exprs
    match e.mode with
    | .passive => 0x05 :: items
    | .active table offset => 0x06 :: Leb128.unsigned table ++ encodeExpr offset ++ items
    | .declared => 0x07 :: items

def Data.encode (d : Data) : Bytes :=
  match d.mode with
  | .active 0 offset => 0x00 :: encodeExpr offset ++ encodeBytes d.bytes
  | .active memory offset =>
    0x02 :: Leb128.unsigned memory ++ encodeExpr offset ++ encodeBytes d.bytes
  | _ => 0x01 :: encodeBytes d.bytes

def Code.encode (c : Code) : Bytes :=
  encodeBytes (encodeVec (fun (n, t) ↦ Leb128.unsigned n ++ t.encode) c.locals ++ encodeExpr c.body)

namespace Section

def id : Section → UInt8
  | .custom .. => 0
  | .types .. => 1
  | .imports .. => 2
  | .functions .. => 3
  | .tables .. => 4
  | .memories .. => 5
  | .globals .. => 6
  | .exports .. => 7
  | .start .. => 8
  | .elements .. => 9
  | .code .. => 10
  | .data .. => 11
  | .dataCount .. => 12
  | .tags .. => 13

def contents : Section → Bytes
  | .custom name contents => encodeName name ++ contents
  | .types groups => encodeVec encodeGroup groups
  | .imports is => encodeVec Import.encode is
  | .functions ts => encodeVec Leb128.unsigned ts
  | .tables ts => encodeVec Table.encode ts
  | .memories ms => encodeVec MemoryType.encode ms
  | .tags ts => encodeVec encodeTag ts
  | .globals gs => encodeVec Global.encode gs
  | .exports es => encodeVec Export.encode es
  | .start f => Leb128.unsigned f
  | .elements es => encodeVec Element.encode es
  | .dataCount n => Leb128.unsigned n
  | .code cs => encodeVec Code.encode cs
  | .data ds => encodeVec Data.encode ds

def encode (s : Section) : Bytes := s.id :: encodeBytes s.contents

end Section

namespace Module

/-- Four bytes that name the format, and the version. -/
def header : Bytes := [0x00, 0x61, 0x73, 0x6d, 0x01, 0x00, 0x00, 0x00]

def encode (m : Module) : Bytes := header ++ m.flatMap Section.encode

/-- Whether the size of every section is a word, so that it can be written. -/
def isWritable (m : Module) : Bool := m.all fun s ↦ s.contents.length < UInt32.size

end Module

/-! ## Names for people -/

/-- A numbered part of the section that holds names. -/
def encodePart (id : UInt8) (contents : Bytes) : Bytes := id :: encodeBytes contents

/-- Names for indices. -/
def encodeNames (names : List (Nat × String)) : Bytes :=
  encodeVec (fun (i, name) ↦ Leb128.unsigned i ++ encodeName name) names

/-- The section that gives names to a module, its functions and its globals. -/
def nameSection (module : String) (functions globals : List (Nat × String)) : Section :=
  .custom "name" <|
    encodePart 0 (encodeName module) ++ encodePart 1 (encodeNames functions) ++
      encodePart 7 (encodeNames globals)

end ScriptWasm.Wasm
