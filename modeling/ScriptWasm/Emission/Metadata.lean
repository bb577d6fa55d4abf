import ScriptWasm.Digest.Sha256
import ScriptWasm.Emission.Tables
import ScriptWasm.Json.Reader
import ScriptWasm.Wasm.Container

/-!
# Module metadata

An emitted module describes itself in a custom section, so that a host can run and inspect it: where
to start, the names of the slots, the subroutines with their functions and their positions in the
table of handlers, and the library members that it imports.
-/

namespace ScriptWasm

open Json

structure SubroutineEntry where
  name : String
  function : Nat
  position : Nat
deriving DecidableEq, Repr

structure Metadata where
  version : String
  /-- The name of the container that holds the slots and the routine to start in. -/
  container : String
  entry : String
  slots : List String
  subroutines : List SubroutineEntry
  capabilities : List ImportRef
  /-- The digest of the source. -/
  digest : String
deriving DecidableEq, Repr

/-! ## Names in every module -/

namespace Layout

/-- The version that modules are marked with. -/
def version : String := "0.1.0"

/-- The name of every module. -/
def container : String := "_Program"

/-- The routine to start in. -/
def entry : String := "run"

/-- The memory that holds texts. -/
def memory : String := "memory"

/-- The table that holds subroutines. -/
def handlers : String := "handlers"

/-- The custom section that holds metadata. -/
def metadataSection : String := "lexico"

end Layout

/-! ## JSON -/

section Reading

variable {R : Type → Type} [Source R]

def ImportRef.form : R ImportRef :=
  Source.record "struct ImportRef" ⟨"", ""⟩
    [.needed "module" Source.text fun s r ↦ { r with module := s },
      .needed "field" Source.text fun s r ↦ { r with field := s }]

def SubroutineEntry.form : R SubroutineEntry :=
  Source.record "struct SubroutineEntry" ⟨"", 0, 0⟩
    [.needed "name" Source.text fun s e ↦ { e with name := s },
      .needed "function_index" Source.word32 fun n e ↦ { e with function := n },
      .needed "table_index" Source.word32 fun n e ↦ { e with position := n }]

def Metadata.form : R Metadata :=
  Source.record "struct ModuleMetadata" ⟨"", "", "", [], [], [], ""⟩
    [.needed "compiler_version" Source.text fun s m ↦ { m with version := s },
      .needed "container" Source.text fun s m ↦ { m with container := s },
      .needed "entry" Source.text fun s m ↦ { m with entry := s },
      .needed "slots" (Source.list Source.text) fun ss m ↦ { m with slots := ss },
      .needed "subroutines" (Source.list SubroutineEntry.form)
        fun es m ↦ { m with subroutines := es },
      .needed "capabilities" (Source.list ImportRef.form) fun rs m ↦ { m with capabilities := rs },
      .needed "source_sha256" Source.text fun s m ↦ { m with digest := s }]

end Reading

def SubroutineEntry.toValue (e : SubroutineEntry) : Value :=
  .object
    [("name", .string e.name), ("function_index", .natural e.function),
      ("table_index", .natural e.position)]

namespace Metadata

def toValue (m : Metadata) : Value :=
  .object
    [("compiler_version", .string m.version), ("container", .string m.container),
      ("entry", .string m.entry), ("slots", .strings m.slots),
      ("subroutines", .array (m.subroutines.map SubroutineEntry.toValue)),
      ("capabilities", .array (m.capabilities.map ImportRef.toValue)),
      ("source_sha256", .string m.digest)]

/-- The metadata that bytes of JSON hold. -/
def ofBytes? (bytes : Bytes) : Option Metadata := (Reader.run form bytes).toOption

/-- The metadata of a module: the first section with the right name that holds some. The module need
not be valid. -/
def ofModule? (bytes : Bytes) : Option Metadata :=
  (Wasm.customSections bytes).findSome? fun (name, contents) ↦
    if name = Layout.metadataSection then ofBytes? contents else none

/-- The first subroutine of a name. -/
def subroutine? (m : Metadata) (name : String) : Option SubroutineEntry :=
  m.subroutines.find? (·.name = name)

/-- The metadata of a module with the given tables. -/
def ofTables (t : Tables) (source : String) : Metadata where
  version := Layout.version
  container := Layout.container
  entry := Layout.entry
  slots := t.slots
  subroutines := t.subroutines.zipIdx.map fun (name, i) ↦ ⟨name, t.function (.subroutine i), i⟩
  capabilities := t.capabilities
  digest := Sha256.hexDigest (bytesOf source)

end Metadata

end ScriptWasm
