import ScriptWasm.Text.Split

/-!
# Paths

A path is a text in which slashes separate names. It is kept as it was given, because that is how it
is shown; what it means is the list of its components.
-/

namespace ScriptWasm

structure Path where
  text : String
deriving DecidableEq, Repr, Inhabited

namespace Path

inductive Component where
  | root
  | current
  | parent
  | name (name : String)
deriving DecidableEq, Repr

/-- The names between slashes, empty ones included. -/
def names (p : Path) : List String := (Text.split '/' p.text.toList).map String.ofList

def isAbsolute (p : Path) : Bool := p.text.toList.head? = some '/'

def componentOf (name : String) : Component := if name = ".." then .parent else .name name

/-- The components of a path. Empty names and dots mean nothing, except for a dot that the path
starts with. -/
def components (p : Path) : List Component :=
  let rest := (p.names.filter fun n ↦ n ≠ "" && n ≠ ".").map componentOf
  if p.isAbsolute then .root :: rest
  else if p.names.head? = some "." then .current :: rest
  else rest

/-- A path behind another one. An absolute path stays what it is. -/
def join (p : Path) (q : String) : Path :=
  if (Path.mk q).isAbsolute then ⟨q⟩
  else if p.text = "" || p.text.toList.getLast? = some '/' then ⟨p.text ++ q⟩
  else ⟨p.text ++ "/" ++ q⟩

/-- The last component, if it is a name. -/
def fileName? (p : Path) : Option String :=
  match p.components.getLast? with
  | some (.name n) => some n
  | _ => none

/-- How many bytes a path may have. -/
def longest : Nat := 4095

/-- How many bytes a name in a path may have. -/
def longestName : Nat := 255

/-- A name cut at its last dot; a dot at the beginning does not count. -/
def cutName (name : String) : String × Option String :=
  let cs := name.toList.reverse
  let last := cs.takeWhile (· ≠ '.')
  match cs.drop last.length with
  | _ :: c :: rest => (String.ofList (c :: rest).reverse, some (String.ofList last.reverse))
  | _ => (name, none)

/-- The file name without its extension. -/
def stem? (p : Path) : Option String := p.fileName?.map fun n ↦ (cutName n).1

/-- What stands behind the last dot of the file name. -/
def extension? (p : Path) : Option String := p.fileName?.bind fun n ↦ (cutName n).2

/-- Whether the extension is the given one, in lower or upper case letters. -/
def hasExtension (p : Path) (extension : String) : Bool :=
  match p.extension? with
  | some e => e.toLower = extension.toLower
  | none => false

end Path

end ScriptWasm
