import ScriptWasm.Wasm.Component.Decode
import ScriptWasm.Wasm.Component.Validity

/-!
# Valid binaries

A binary is valid if it is complete, of the version that is in use, and a valid module or component.
-/

namespace ScriptWasm.Wasm

/-- The module that sections hold. -/
def Module.ofSections? (sections : List RawSection) : Option Module :=
  sections.mapM fun s ↦ Section.decode? s.id s.contents

/-- The version of the format that is in use. -/
def BinaryKind.version : BinaryKind → Nat
  | .module => 1
  | .component => 13

/-- What a binary holds. -/
inductive Binary where
  | module (m : Module)
  | component (c : Component)

/-- The items of a section of a component; `inner?` reads the binaries in it. -/
def Component.items? (inner? : RawSection → Option Binary) (s : RawSection) :
    Option (List Component.Item) :=
  if s.id = 1 then
    match inner? s with
    | some (.module m) => some [.module m]
    | _ => none
  else if s.id = 4 then
    match inner? s with
    | some (.component c) => some [.component c]
    | _ => none
  else Component.listedItems? s

/-- What a complete binary holds. Every binary inside of another takes several bytes, so a number of
bytes bounds the depth. -/
def Binary.decodeWithin? : Nat → Option Nat → Bytes → Option Binary
  | 0, _, _ => none
  | depth + 1, slack?, bytes =>
    match cutBinary? slack? bytes with
    | some (header, sections, true) =>
      if header.version = header.kind.version then
        match header.kind with
        | .module => (Module.ofSections? sections).map .module
        | .component =>
          let inner? (s : RawSection) := Binary.decodeWithin? depth (some s.missing) s.contents
          (sections.mapM (Component.items? inner?)).map fun items ↦ .component items.flatten
      else none
    | _ => none

/-- What bytes hold, if they are a complete binary. -/
def Binary.decode? (bytes : Bytes) : Option Binary :=
  Binary.decodeWithin? (bytes.length + 1) none bytes

def Binary.isValid : Binary → Bool
  | .module m => m.isValid
  | .component c => c.isValid

/-- Whether bytes are a valid module or component. -/
def isValidBinary (bytes : Bytes) : Bool := (Binary.decode? bytes).any Binary.isValid

end ScriptWasm.Wasm
