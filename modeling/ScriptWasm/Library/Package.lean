import ScriptWasm.Library.Manifest
import ScriptWasm.Wasm.Binary
import ScriptWasm.Wasm.Encode

/-!
# Libraries as modules

A library is a WebAssembly module or component that carries its manifest in a custom section. It has
to be valid, whatever else is in it; without the section it is a library that offers nothing.
-/

namespace ScriptWasm

open Json Wasm

namespace Manifest

/-- The custom section that holds a manifest. -/
def sectionName : String := "lexico.capabilities"

/-- A module that holds nothing but a manifest. -/
def pack (m : Manifest) : Bytes := Module.encode [.custom sectionName (bytesOf m.toValue.write)]

/-- Why bytes are not a library. -/
inductive PackageError where
  | invalidModule
  /-- The section does not hold a manifest. -/
  | malformed (problem : String)
deriving DecidableEq, Repr

def PackageError.message : PackageError → String
  | .invalidModule => "not a valid WebAssembly module"
  | .malformed problem => s!"malformed capability manifest: {problem}"

/-- The manifest in the first section of the right name. -/
def ofModule? (bytes : Bytes) : Except PackageError (Option Manifest) :=
  if isValidBinary bytes then
    match (customSections bytes).lookup sectionName with
    | none => .ok none
    | some contents =>
      match Reader.run form contents with
      | .ok manifest => .ok (some manifest)
      | .error f => .error (.malformed (f.message contents))
  else .error .invalidModule

end Manifest

end ScriptWasm
