import ScriptWasm.Emission.Lower
import ScriptWasm.Emission.Metadata
import ScriptWasm.Emission.Prepare
import ScriptWasm.Wasm.Encode
import ScriptWasm.Wasm.Validity

/-!
# Assembling modules

A program becomes a module: its tables are filled, the code of its routines is emitted, and both are
laid out in sections. A module that is not valid, or too large to be written, is not given out.
-/

namespace ScriptWasm

open Wasm

/-- The subroutines that a program declares, in order. -/
def Program.subroutineBodies (p : Program) : List (List Stmt) :=
  p.body.filterMap fun | .sub _ body _ => some body | _ => none

/-- The code of a program: the routine that it starts in, then its subroutines. -/
def Setting.lowerProgram (w : Setting) (p : Program) : Except EmitError (List Code) := do
  let entry ← w.routineCode .entry p.body
  let others ← p.subroutineBodies.zipIdx.mapM fun (body, i) ↦ w.routineCode (.subroutine i) body
  return entry :: others

/-! ## Sections -/

namespace Tables

variable (t : Tables)

/-- The size of a page of memory. -/
def pageSize : Nat := 65536

/-- The pages that hold every text; there is always one. -/
def pages : Nat := max 1 ((dataStart + t.dataSize + pageSize - 1) / pageSize)

def importSection : Section :=
  .imports (t.imports.map fun e ↦ ⟨e.source.module, e.source.field, .function e.signature⟩)

/-- The routines, all of which have the first signature. -/
def functionSection : Section := .functions (List.replicate (t.subroutines.length + 1) 0)

/-- A table with a place for every subroutine. -/
def tableSection : Section :=
  let n := t.subroutines.length
  .tables [{ type := ⟨.orNull .func, ⟨n, some n, false⟩⟩ }]

def memorySection : Section := .memories [⟨⟨t.pages, none, false⟩, false⟩]

/-- Every slot holds the empty value at first. -/
def globalSection : Section := .globals (t.slots.map fun _ ↦ ⟨⟨.i32, true⟩, [.i32Const 0]⟩)

def exportSection : Section :=
  .exports
    [⟨Layout.entry, .function, t.function .entry⟩, ⟨Layout.memory, .memory, 0⟩,
      ⟨Layout.handlers, .table, 0⟩]

/-- Subroutines are put into the table in order. -/
def elementSections : List Section :=
  if t.subroutines.isEmpty then []
  else
    let functions := (List.range t.subroutines.length).map fun i ↦ t.function (.subroutine i)
    [.elements [⟨.active 0 [.i32Const 0], .functions functions⟩]]

/-- Texts are put into memory. -/
def dataSections : List Section :=
  if t.data.isEmpty then []
  else [.data [⟨.active 0 [.i32Const (UInt32.ofNat dataStart)], t.data⟩]]

/-- The names of functions: imports are named by their fields, subroutines by their names. -/
def functionNames : List (Nat × String) :=
  (t.imports.zipIdx.map fun (e, i) ↦ (i, e.source.field)) ++
    (t.function .entry, Layout.entry) ::
    t.subroutines.zipIdx.map fun (name, i) ↦ (t.function (.subroutine i), name)

def slotNames : List (Nat × String) := t.slots.zipIdx.map fun (name, i) ↦ (i, name)

def nameSection : Section := Wasm.nameSection Layout.container t.functionNames t.slotNames

/-- The module with the given code and metadata. -/
def layout (codes : List Code) (metadata : Metadata) : Module :=
  [.types (t.signatures.map FuncType.group), t.importSection, t.functionSection, t.tableSection,
    t.memorySection, t.globalSection, t.exportSection] ++
    t.elementSections ++ [.code codes] ++ t.dataSections ++
    [t.nameSection, .custom Layout.metadataSection (bytesOf metadata.toValue.write)]

end Tables

/-! ## Modules -/

/-- The module of a program, valid or not. -/
def Host.module (h : Host) (p : Program) (source : String) : Except EmitError Module := do
  let tables ← Tables.ofProgram h p
  let codes ← Setting.lowerProgram ⟨h, tables⟩ p
  return tables.layout codes (.ofTables tables source)

/-- The bytes of the module of a program. -/
def Host.assemble (h : Host) (p : Program) (source : String) : Except EmitError Bytes := do
  let m ← h.module p source
  if m.isValid then
    if m.isWritable then return m.encode else throw .invalidModule
  else throw .invalidModule

end ScriptWasm
