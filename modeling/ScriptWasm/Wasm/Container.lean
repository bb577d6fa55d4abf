import ScriptWasm.Wasm.Take

/-!
# Cutting binaries into sections

A binary is a header and sections behind their sizes. It is cut by the sizes alone, and what is in a
section is looked at later, or never: whoever looks for a custom section can stop where the bytes
stop making sense.

There are two kinds of binaries. The sections of a module hold its parts. A component can hold whole
binaries as well, which are cut in turn. Such a section may claim more bytes than there are; then it
just ends with them. But no section may claim more than the one that it is in.
-/

namespace ScriptWasm.Wasm

/-- The two kinds of binaries. -/
inductive BinaryKind where
  | module
  | component
deriving DecidableEq, Repr

/-- A header: the kind of the binary and the version of the format. -/
structure Header where
  kind : BinaryKind
  version : Nat
deriving DecidableEq, Repr

def Take.header : Take Header := do
  guard ((← bytes 4) = [0x00, 0x61, 0x73, 0x6d])
  let version ← littleEndian 2
  match ← littleEndian 2 with
  | 0 => return ⟨.module, version⟩
  | 1 => return ⟨.component, version⟩
  | _ => failure

/-- A section by its number, its contents, and how many bytes more it claims to have. -/
structure RawSection where
  id : UInt8
  contents : Bytes
  missing : Nat
deriving Repr

/-- Whether a section of the given number holds a binary. -/
def BinaryKind.nests (kind : BinaryKind) (id : UInt8) : Bool :=
  kind = .component && (id = 1 || id = 4)

/-- The first section, and the bytes behind it. Of a binary that is the contents of a section,
`slack?` is how many bytes are missing. -/
def cutSection (kind : BinaryKind) (slack? : Option Nat) : Take RawSection
  | [] => none
  | id :: bs =>
    match Take.word bs with
    | none => none
    | some (size, rest) =>
      let contents := rest.take size
      let missing := size - contents.length
      if id < 128 && (missing = 0 || (kind.nests id && slack?.all (missing ≤ ·))) then
        some (⟨id, contents, missing⟩, rest.drop size)
      else none

/-- Cuts bytes into sections; `done` are those found, in reverse. If the bytes end in the middle of
one, that is noted. Every section takes a byte at least, so a number of bytes bounds the steps. -/
def cutSections (kind : BinaryKind) (slack? : Option Nat) :
    Nat → List RawSection → Bytes → List RawSection × Bool
  | _, done, [] => (done.reverse, true)
  | 0, done, _ => (done.reverse, false)
  | steps + 1, done, bs =>
    match cutSection kind slack? bs with
    | none => (done.reverse, false)
    | some (s, rest) => cutSections kind slack? steps (s :: done) rest

/-- The header and the sections of a binary, and whether they are complete. -/
def cutBinary? (slack? : Option Nat) (bytes : Bytes) : Option (Header × List RawSection × Bool) :=
  match Take.header bytes with
  | none => none
  | some (header, rest) => some (header, cutSections header.kind slack? rest.length [] rest)

/-! ## Custom sections of anything like a binary -/

/-- Whether a reader gets through the functions of a code section by their sizes. -/
def skipSized : Nat → Bytes → Bool
  | 0, bs => bs.isEmpty
  | n + 1, bs =>
    match Take.sized bs with
    | some (_, rest) => skipSized n rest
    | none => false

/-- How the start of a component is written: a function, its arguments, the number of results. -/
def Take.componentStart : Take (Nat × List Nat × Nat) := do
  let function ← word
  let arguments ← vec word
  let results ← word
  guard (arguments.length ≤ 1000 && results ≤ 1000)
  return (function, arguments, results)

/-- Whether a section starts well enough for a reader to go on to the next: a custom section has a
name, a list has a count, a single thing is all there is, and functions fill their section. -/
def RawSection.opens (kind : BinaryKind) (s : RawSection) : Bool :=
  if s.id = 0 then (Take.name s.contents).isSome
  else
    match kind with
    | .module =>
      if s.id = 8 ∨ s.id = 12 then (Take.whole Take.word s.contents).isSome
      else if s.id = 10 then
        match Take.word s.contents with
        | some (count, rest) => skipSized count rest
        | none => false
      else if s.id ≤ 13 then (Take.word s.contents).isSome
      else true
    | .component =>
      if s.id = 9 then (Take.whole Take.componentStart s.contents).isSome
      else if s.id ≤ 11 then (Take.word s.contents).isSome
      else true

/-- The custom sections among sections, in front of the first one that makes no sense, and whether
there is none such. Those of a binary inside of a section are found by `inner`. -/
def gatherCustoms (kind : BinaryKind) (inner : RawSection → List (String × Bytes) × Bool) :
    List RawSection → List (String × Bytes) × Bool
  | [] => ([], true)
  | s :: rest =>
    let (found, sound) :=
      if kind.nests s.id then inner s
      else if s.id = 0 then ((Take.name s.contents).toList, s.opens kind)
      else ([], s.opens kind)
    if sound then
      let (more, sound) := gatherCustoms kind inner rest
      (found ++ more, sound)
    else (found, false)

/-- The custom sections of a binary. Every binary inside of another takes several bytes, so a number
of bytes bounds the depth. -/
def customsWithin : Nat → Option Nat → Bytes → List (String × Bytes) × Bool
  | 0, _, _ => ([], false)
  | depth + 1, slack?, bytes =>
    match cutBinary? slack? bytes with
    | none => ([], false)
    | some (header, sections, complete) =>
      let inner (s : RawSection) := customsWithin depth (some s.missing) s.contents
      let (found, sound) := gatherCustoms header.kind inner sections
      (found, sound && complete)

/-- The custom sections in front of the first section that makes no sense. Those of a binary inside
of another stand where that one does. -/
def customSections (bytes : Bytes) : List (String × Bytes) :=
  (customsWithin (bytes.length + 1) none bytes).1

end ScriptWasm.Wasm
