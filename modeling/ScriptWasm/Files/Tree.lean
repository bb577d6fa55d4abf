import ScriptWasm.Files.Basic

/-!
# Trees of files

A tree of files as a value, without links: a table from locations to what is there. A location is
the list of names that leads to it from the root. The root is always there, and always a directory.

A path is followed name by name from the working directory, or from the root. Whatever is passed has
to be a directory; what the path leads to need not exist. Names and whole paths can be too long.
-/

namespace ScriptWasm

/-- The names that lead from the root to a file or a directory. -/
abbrev Location := List String

inductive Entry where
  | file (contents : Bytes)
  | directory
deriving DecidableEq, Repr

structure FileTree where
  entries : List (Location × Entry)
  /-- The directory that relative paths start from. -/
  working : Location
deriving DecidableEq, Repr

namespace FileTree

def get? (t : FileTree) (l : Location) : Option Entry :=
  if l = [] then some .directory else t.entries.lookup l

def erase (t : FileTree) (l : Location) : FileTree :=
  { t with entries := t.entries.filter (·.1 ≠ l) }

/-- Puts something at a location, in place of what is there. -/
def set (t : FileTree) (l : Location) (e : Entry) : FileTree :=
  { t with entries := (l, e) :: (t.erase l).entries }

/-! ## Following paths -/

/-- Follows names from a location. -/
def follow (t : FileTree) (l : Location) : List String → Except FileError Location
  | [] => .ok l
  | n :: rest =>
    match t.get? l with
    | none => .error .notFound
    | some (.file _) => .error .notDirectory
    | some .directory =>
      if n = "" ∨ n = "." then t.follow l rest
      else if n = ".." then t.follow l.dropLast rest
      else if Path.longestName < n.utf8ByteSize then .error .nameTooLong
      else t.follow (l ++ [n]) rest

/-- Where a path leads. -/
def locate (t : FileTree) (p : Path) : Except FileError Location :=
  if p.text.toList.contains '\x00' then .error .nulInName
  else if p.text = "" then .error .notFound
  else if Path.longest < p.text.utf8ByteSize then .error .nameTooLong
  else t.follow (if p.isAbsolute then [] else t.working) p.names

/-- What a path leads to. -/
def find (t : FileTree) (p : Path) : Except FileError Entry := do
  match t.get? (← t.locate p) with
  | some e => .ok e
  | none => .error .notFound

/-- The path of a location. -/
def pathOf (l : Location) : Path := ⟨"/" ++ "/".intercalate l⟩

/-! ## Operations -/

def read (t : FileTree) (p : Path) : Except FileError Bytes := do
  match ← t.find p with
  | .file contents => .ok contents
  | .directory => .error .isDirectory

/-- The names of what lies in a location. -/
def childNames (t : FileTree) (l : Location) : List String :=
  t.entries.filterMap fun (k, _) ↦
    match k.getLast? with
    | some n => if k.dropLast = l then some n else none
    | none => none

def list (t : FileTree) (p : Path) : Except FileError (List String) := do
  let l ← t.locate p
  match t.get? l with
  | none => .error .notFound
  | some (.file _) => .error .notDirectory
  | some .directory => .ok (t.childNames l)

def isFile (t : FileTree) (p : Path) : Bool :=
  match t.find p with
  | .ok (.file _) => true
  | _ => false

def canonical (t : FileTree) (p : Path) : Except FileError Path := do
  let l ← t.locate p
  match t.get? l with
  | some _ => .ok (pathOf l)
  | none => .error .notFound

/-- Where a file can be made or replaced: the directory around it exists, and it is no directory
itself. -/
def target (t : FileTree) (p : Path) : Except FileError Location := do
  let l ← t.locate p
  match t.get? l.dropLast with
  | none => .error .notFound
  | some (.file _) => .error .notDirectory
  | some .directory =>
    match t.get? l with
    | some .directory => .error .isDirectory
    | _ => .ok l

def create (t : FileTree) (p : Path) : Except FileError FileTree := do
  return t.set (← t.target p) (.file [])

def append (t : FileTree) (p : Path) (bytes : Bytes) : Except FileError FileTree := do
  let l ← t.locate p
  match t.get? l with
  | none => .error .notFound
  | some .directory => .error .isDirectory
  | some (.file contents) => .ok (t.set l (.file (contents ++ bytes)))

def rename (t : FileTree) (p q : Path) : Except FileError FileTree := do
  let l ← t.locate p
  match t.get? l with
  | none => .error .notFound
  | some e => return (t.erase l).set (← t.target q) e

def remove (t : FileTree) (p : Path) : Except FileError FileTree := do
  let l ← t.locate p
  match t.get? l with
  | none => .error .notFound
  | some .directory => .error .isDirectory
  | some (.file _) => .ok (t.erase l)

def copy (t : FileTree) (p q : Path) : Except FileError FileTree := do
  let contents ← t.read p
  return t.set (← t.target q) (.file contents)

end FileTree

/-- Looks at the tree. -/
def FileTree.looking {α : Type} (look : FileTree → α) : StateM FileTree α := fun t ↦ (look t, t)

/-- Changes the tree, unless that fails. -/
def FileTree.changing (change : FileTree → Except FileError FileTree) :
    StateM FileTree (Except FileError Unit) := fun t ↦
  match change t with
  | .ok t => (.ok (), t)
  | .error e => (.error e, t)

instance : Files (StateM FileTree) where
  read p := FileTree.looking (·.read p)
  list p := FileTree.looking (·.list p)
  isFile p := FileTree.looking (·.isFile p)
  canonical p := FileTree.looking (·.canonical p)
  create p := FileTree.changing (·.create p)
  append p bytes := FileTree.changing (·.append p bytes)
  sync _ := FileTree.changing .ok
  rename p q := FileTree.changing (·.rename p q)
  remove p := FileTree.changing (·.remove p)
  copy p q := FileTree.changing (·.copy p q)

end ScriptWasm
