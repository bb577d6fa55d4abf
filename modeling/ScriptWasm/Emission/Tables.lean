import ScriptWasm.Emission.Error
import ScriptWasm.Library.Operators
import ScriptWasm.Program.Basic
import ScriptWasm.Wasm.Types

/-!
# The tables of a module

Before any code is emitted, a walk over the program fills the tables that the code refers to:
storage slots, signatures, imports, subroutines, labels and texts. Every table is a list, and an
entry's index is its position. Entries are only ever added at the end, so an index once given stays
what it is, and a walk that emits code needs to look and never to add.
-/

namespace ScriptWasm

open Wasm

/-- What a program can call: library members, and the operations on values. -/
structure Host where
  registry : Registry
  operators : Bindings

/-! ## Shapes of types -/

/-- The values that carry a parameter. A text is an address and a length. -/
def TypeRef.paramTypes : TypeRef → List ValType
  | .void => []
  | .text => [.i32, .i32]
  | .number => [.f64]
  | _ => [.i32]

/-- The values that carry a result. -/
def TypeRef.resultTypes : TypeRef → List ValType
  | .void => []
  | .number => [.f64]
  | _ => [.i32]

def Handle.signature (h : Handle) : FuncType :=
  ⟨h.params.flatMap TypeRef.paramTypes, h.returns.resultTypes⟩

/-- A method takes values, and returns at most one. -/
def MethodDescriptor.signature (m : MethodDescriptor) : FuncType :=
  ⟨List.replicate m.paramCount .i32, if m.returnsValue then [.i32] else []⟩

/-- Reading a property gives a value. -/
def getterSignature : FuncType := ⟨[], [.i32]⟩

/-- Writing a property takes a value, and subscribing to an event takes the number of a routine. -/
def setterSignature : FuncType := ⟨[.i32], []⟩

/-! ## Routines -/

/-- The routines of a program: the one it starts in, and its subroutines in order. -/
inductive Routine where
  | entry
  | subroutine (index : Nat)
deriving DecidableEq, Repr

/-- The position of a routine among all. -/
def Routine.position : Routine → Nat
  | .entry => 0
  | .subroutine index => index + 1

/-! ## Tables -/

/-- An imported function, with the index of its signature. -/
structure ImportEntry where
  source : ImportRef
  signature : Nat
deriving DecidableEq, Repr

/-- Where bytes lie in memory. -/
structure Extent where
  start : Nat
  length : Nat
deriving DecidableEq, Repr

structure TextEntry where
  text : String
  extent : Extent
deriving DecidableEq, Repr

structure Tables where
  /-- The names of the storage slots. -/
  slots : List String
  signatures : List FuncType
  imports : List ImportEntry
  /-- Those imports that stand for library members. -/
  capabilities : List ImportRef
  subroutines : List String
  /-- The labels of each routine. -/
  labels : List (List String)
  texts : List TextEntry
deriving DecidableEq, Repr

namespace Tables

/-- Indices and addresses have 32 bits. -/
def indexLimit : Nat := UInt32.size

def empty : Tables := ⟨[], [], [], [], [], [[]], []⟩

/-! ### Slots -/

/-- One slot for each name. A table that is given a name twice has two slots of that name. -/
def allocateSlots (t : Tables) (symbols : SymbolTable) : Except EmitError Tables :=
  if t.slots.length + symbols.names.length ≤ indexLimit then
    .ok { t with slots := t.slots ++ symbols.names }
  else .error (.limitExceeded .slots)

/-- The last position of an element in a list. -/
def lastIndex? (name : String) (names : List String) : Option Nat :=
  (names.reverse.idxOf? name).map fun i ↦ names.length - 1 - i

/-- The slot of a variable; of several slots of one name the last one is used. -/
def slot (t : Tables) (name : String) : Except EmitError Nat :=
  match lastIndex? name t.slots with
  | some i => .ok i
  | none => .error (.unresolved (.variable name))

/-! ### Signatures and imports -/

/-- The index of a signature, which is added if it is new. -/
def addSignature (t : Tables) (type : FuncType) : Nat × Tables :=
  match t.signatures.idxOf? type with
  | some i => (i, t)
  | none => (t.signatures.length, { t with signatures := t.signatures ++ [type] })

def importIndex? (t : Tables) (source : ImportRef) : Option Nat :=
  t.imports.findIdx? (·.source = source)

/-- The index of an imported function, which is added if it is new. A function that is known keeps
the signature that it was added with. -/
def addImport (t : Tables) (source : ImportRef) (type : FuncType) : Nat × Tables :=
  match t.importIndex? source with
  | some i => (i, t)
  | none =>
    let (signature, t) := t.addSignature type
    (t.imports.length, { t with imports := t.imports ++ [⟨source, signature⟩] })

/-- As `addImport`, for a library member. -/
def addCapability (t : Tables) (source : ImportRef) (type : FuncType) : Nat × Tables :=
  match t.importIndex? source with
  | some i => (i, t)
  | none => { t with capabilities := t.capabilities ++ [source] }.addImport source type

/-- The index of a function that has been imported. -/
def imported (t : Tables) (source : ImportRef) : Except EmitError Nat :=
  match t.importIndex? source with
  | some i => .ok i
  | none => .error (.unresolved (.function source))

/-- The tables that every module starts from: the signature of routines, and the operations in their
order. -/
def start (operators : Bindings) : Tables :=
  operators.handles.foldl (fun t h ↦ (t.addImport h.source h.signature).2)
    (empty.addSignature ⟨[], []⟩).2

/-! ### Routines -/

/-- Declares a subroutine and gives its index. -/
def declareSubroutine (t : Tables) (name : String) : Except EmitError (Nat × Tables) :=
  if t.subroutines.contains name then .error (.unsupported (.repeatedSubroutine name))
  else if t.subroutines.length < indexLimit then
    .ok (t.subroutines.length,
      { t with subroutines := t.subroutines ++ [name], labels := t.labels ++ [[]] })
  else .error (.limitExceeded .subroutines)

/-- The index of a subroutine, which is also its position in the table of handlers. -/
def subroutine (t : Tables) (name : String) : Except EmitError Nat :=
  match t.subroutines.idxOf? name with
  | some i => .ok i
  | none => .error (.unresolved (.subroutine name))

/-- The function of a routine; routines come behind all imports. -/
def function (t : Tables) (routine : Routine) : Nat := t.imports.length + routine.position

/-- The labels of a routine. -/
def labelsOf (t : Tables) (routine : Routine) : List String := t.labels.getD routine.position []

/-- Declares a label of a routine and gives the segment that it opens. The routine starts in
segment 0. -/
def declareLabel (t : Tables) (routine : Routine) (name : String) :
    Except EmitError (Nat × Tables) :=
  if (t.labelsOf routine).contains name then .error (.unsupported (.repeatedLabel name))
  else
    .ok ((t.labelsOf routine).length + 1,
      { t with labels := t.labels.modify routine.position (· ++ [name]) })

/-- The segment that a label of a routine opens. -/
def label (t : Tables) (routine : Routine) (name : String) : Except EmitError Nat :=
  match (t.labelsOf routine).idxOf? name with
  | some i => .ok (i + 1)
  | none => .error (.unresolved (.label name))

/-! ### Texts -/

/-- The first byte of memory that holds texts. -/
def dataStart : Nat := 16

/-- The bytes of all texts, one after the other. -/
def data (t : Tables) : Bytes := t.texts.flatMap fun e ↦ bytesOf e.text

def dataSize (t : Tables) : Nat := t.texts.foldr (fun e n ↦ e.extent.length + n) 0

def textExtent? (t : Tables) (text : String) : Option Extent :=
  (t.texts.find? (·.text = text)).map (·.extent)

/-- Where a text lies, which is added if it is new. -/
def addText (t : Tables) (text : String) : Except EmitError (Extent × Tables) :=
  match t.textExtent? text with
  | some e => .ok (e, t)
  | none =>
    let e : Extent := ⟨dataStart + t.dataSize, text.utf8ByteSize⟩
    if indexLimit ≤ e.start then .error (.limitExceeded .dataSegment)
    else if indexLimit ≤ e.length then .error (.limitExceeded .textLiteral)
    else .ok (e, { t with texts := t.texts ++ [⟨text, e⟩] })

/-- Where a text lies that has been added. -/
def textExtent (t : Tables) (text : String) : Except EmitError Extent :=
  match t.textExtent? text with
  | some e => .ok e
  | none => .error (.unresolved (.text text))

end Tables

/-! ## Library members by name -/

namespace Host

def method (h : Host) (type method : String) : Except EmitError MethodDescriptor :=
  match h.registry.method? type method with
  | some m => .ok m
  | none => .error (.unresolved (.method type method))

def property (h : Host) (type property : String) : Except EmitError PropertyDescriptor :=
  match h.registry.property? type property with
  | some p => .ok p
  | none => .error (.unresolved (.property type property))

def event (h : Host) (type event : String) : Except EmitError EventDescriptor :=
  match h.registry.event? type event with
  | some e => .ok e
  | none => .error (.unresolved (.event type event))

/-- The function that reads a property. -/
def getter (h : Host) (type property : String) : Except EmitError ImportRef := do
  match (← h.property type property).getter? with
  | some source => .ok source
  | none => .error (.unsupported (.unreadable type property))

/-- The function that writes a property. -/
def setter (h : Host) (type property : String) : Except EmitError ImportRef := do
  match (← h.property type property).setter? with
  | some source => .ok source
  | none => .error (.unsupported (.unwritable type property))

end Host

end ScriptWasm
