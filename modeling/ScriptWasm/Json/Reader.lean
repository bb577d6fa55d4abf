import ScriptWasm.Json.Decoder
import ScriptWasm.Json.Skip

/-!
# Reading a text

A reader takes a value from the front of the bytes that are left. Its first argument is the number
of brackets that may still be opened, plus one; a text may not nest deeper than `maxLevels` allows.

Lists and records settle the faults of what they contain: a fault that no byte is to blame for is
placed where reading stands after the closing bracket has been looked for.
-/

namespace ScriptWasm.Json

/-- A way of reading a value from the front of some bytes. -/
abbrev Reader (α : Type) := Nat → Bytes → Except Fault (α × Bytes)

/-- The level at which a text starts; opening a bracket goes down a level, and none may be opened on
the last one. -/
def maxLevels : Nat := 128

namespace Reader

/-- The first byte of a value and what follows it. -/
def start (bytes : Bytes) : Except Fault (UInt8 × Bytes) :=
  match skipBlanks bytes with
  | [] => .error (.ahead .endOfValue [])
  | b :: rest => .ok (b, rest)

/-! ## Values of the wrong kind -/

/-- A literal of the wrong kind is at fault as soon as it has been read; a bracket before it is
opened. -/
def unexpected (expected : String) : Bytes → Fault
  | [] => .ahead .expectedValue []
  | b :: rest =>
    let blame (found : Found) (rest : Bytes) : Fault := .behind (.invalidType found expected) rest
    let afterWord (found : Found) (result : Except Fault Bytes) : Fault :=
      match result with
      | .ok rest => blame found rest
      | .error f => f
    let afterNumber (result : Except Fault (Number × Bytes)) : Fault :=
      match result with
      | .ok (.integer n, rest) => blame (.integer n) rest
      | .ok (.float x, rest) => blame (.float x) rest
      | .error f => f
    if b = 110 then afterWord .null (word wordNull rest)
    else if b = 116 then afterWord (.boolean true) (word wordTrue rest)
    else if b = 102 then afterWord (.boolean false) (word wordFalse rest)
    else if b = 45 then afterNumber (number true rest)
    else if isDigit b then afterNumber (number false (b :: rest))
    else if b = 34 then
      match string rest with
      | .ok (s, rest) => blame (.text s) rest
      | .error f => f
    else if b = 91 then blame .sequence (b :: rest)
    else if b = 123 then blame .map (b :: rest)
    else .ahead .expectedValue (b :: rest)

/-- Gives a problem of a value that has just been read its place behind it. -/
def judged {α : Type} (result : Except Problem α) (rest : Bytes) : Except Fault (α × Bytes) :=
  match result with
  | .ok a => .ok (a, rest)
  | .error problem => .error (.behind problem rest)

/-! ## Scalars -/

/-- A string, where `expected` names what it should be. -/
def quoted (expected : String) : Reader String := fun _ bytes ↦ do
  let (b, rest) ← start bytes
  if b = 34 then string rest else .error (unexpected expected (b :: rest))

def boolean : Reader Bool := fun _ bytes ↦ do
  let (b, rest) ← start bytes
  if b = 116 then return (true, ← word wordTrue rest)
  else if b = 102 then return (false, ← word wordFalse rest)
  else .error (unexpected "a boolean" (b :: rest))

/-- A number, from which a value is made. -/
def numeric {α : Type} (expected : String) (make : Number → Except Problem α) : Reader α :=
  fun _ bytes ↦ do
    let (b, rest) ← start bytes
    if b = 45 then
      let (n, rest) ← number true rest
      judged (make n) rest
    else if isDigit b then
      let (n, rest) ← number false (b :: rest)
      judged (make n) rest
    else .error (unexpected expected (b :: rest))

def double : Reader Binary64 :=
  numeric "f64" fun
    | .integer n => .ok (Decoder.doubleOfInt n)
    | .float x => .ok x

def natural (limit : Nat) (expected : String) : Reader Nat :=
  numeric expected (Decoder.naturalOf limit expected)

def optional {α : Type} (item : Reader α) : Reader (Option α) := fun levels bytes ↦
  match skipBlanks bytes with
  | 110 :: rest => do return (none, ← word wordNull rest)
  | other => do
    let (a, rest) ← item levels other
    return (some a, rest)

def unit : Reader Unit := fun _ bytes ↦ do
  let (b, rest) ← start bytes
  if b = 110 then return ((), ← word wordNull rest)
  else .error (unexpected "unit" (b :: rest))

/-! ## Brackets -/

/-- Reads what is between two brackets, at the next level, and then the closing one. -/
def bracketed {α : Type} (close : Bytes → Except Fault Bytes) (contents : Reader α) (levels : Nat)
    (opening : UInt8) (rest : Bytes) : Except Fault (α × Bytes) :=
  if levels ≤ 1 then .error (.ahead .nestedTooDeep (opening :: rest))
  else
    match contents (levels - 1) rest with
    | .ok (a, rest) =>
      match close rest with
      | .ok rest => .ok (a, rest)
      | .error f => .error f
    | .error f =>
      match close f.rest with
      | .ok rest => .error (f.settle rest)
      | .error g => .error (f.settle g.rest)

/-- The end of a list. -/
def closeList (bytes : Bytes) : Except Fault Bytes :=
  match skipBlanks bytes with
  | [] => .error (.ahead .endOfList [])
  | b :: rest =>
    if b = 93 then .ok rest
    else if b = 44 then
      match skipBlanks rest with
      | 93 :: rest => .error (.ahead .trailingComma (93 :: rest))
      | other => .error (.ahead .trailingCharacters other)
    else .error (.ahead .trailingCharacters (b :: rest))

/-- The end of an object. -/
def closeObject (bytes : Bytes) : Except Fault Bytes :=
  match skipBlanks bytes with
  | [] => .error (.ahead .endOfObject [])
  | b :: rest =>
    if b = 125 then .ok rest
    else if b = 44 then .error (.ahead .trailingComma (b :: rest))
    else .error (.ahead .trailingCharacters (b :: rest))

/-! ## Lists -/

/-- Goes to the next item of a list: `none` in front of the closing bracket. -/
def nextItem (first : Bool) (bytes : Bytes) : Except Fault (Option Bytes × Bytes) :=
  match skipBlanks bytes with
  | [] => .error (.ahead .endOfList [])
  | b :: rest =>
    if b = 93 then .ok (none, b :: rest)
    else if first then .ok (some (b :: rest), b :: rest)
    else if b = 44 then
      match skipBlanks rest with
      | [] => .error (.ahead .endOfValue [])
      | c :: rest =>
        if c = 93 then .error (.ahead .trailingComma (c :: rest))
        else .ok (some (c :: rest), c :: rest)
    else .error (.ahead .expectedListCommaOrEnd (b :: rest))

/-- The items of a list, behind which `done` stands in reverse. Every item takes at least one byte,
so the bytes that are left bound the steps. -/
def items {α : Type} (item : Reader α) (levels : Nat) :
    Nat → List α → Bytes → Except Fault (List α × Bytes)
  | 0, _, bytes => .error (.ahead .expectedValue bytes)
  | steps + 1, done, bytes => do
    match ← nextItem done.isEmpty bytes with
    | (none, rest) => return (done.reverse, rest)
    | (some front, _) =>
      let (a, rest) ← item levels front
      items item levels steps (a :: done) rest

def list {α : Type} (item : Reader α) : Reader (List α) := fun levels bytes ↦ do
  let (b, rest) ← start bytes
  if b = 91 then
    let contents : Reader (List α) := fun levels rest ↦
      items item levels (rest.length + 1) [] rest
    bracketed closeList contents levels b rest
  else .error (unexpected "a sequence" (b :: rest))

/-! ## Records -/

/-- Goes to the next key of an object and reads it: `none` in front of the closing bracket. -/
def nextKey (first : Bool) (bytes : Bytes) : Except Fault (Option String × Bytes) :=
  match skipBlanks bytes with
  | [] => .error (.ahead .endOfObject [])
  | b :: rest =>
    if b = 125 then .ok (none, b :: rest)
    else if first then
      if b = 34 then do
        let (key, rest) ← string rest
        return (some key, rest)
      else .error (.ahead .keyMustBeString (b :: rest))
    else if b = 44 then
      match skipBlanks rest with
      | [] => .error (.ahead .endOfValue [])
      | c :: rest =>
        if c = 34 then do
          let (key, rest) ← string rest
          return (some key, rest)
        else if c = 125 then .error (.ahead .trailingComma (c :: rest))
        else .error (.ahead .keyMustBeString (c :: rest))
    else .error (.ahead .expectedObjectCommaOrEnd (b :: rest))

/-- The colon behind a key. -/
def colon (bytes : Bytes) : Except Fault Bytes :=
  match skipBlanks bytes with
  | [] => .error (.ahead .endOfObject [])
  | b :: rest => if b = 58 then .ok rest else .error (.ahead .expectedColon (b :: rest))

/-- Stores the members of an object; `seen` are the names of the record met so far. Members that the
record does not know go to `other`. -/
def storeMembers {σ : Type} (members : List (Member Reader σ)) (other : String → Reader (σ → σ))
    (levels : Nat) : Nat → Bool → List String → σ → Bytes → Except Fault ((σ × List String) × Bytes)
  | 0, _, _, _, bytes => .error (.ahead .expectedValue bytes)
  | steps + 1, first, seen, s, bytes => do
    match ← nextKey first bytes with
    | (none, rest) => return ((s, seen), rest)
    | (some key, rest) =>
      match members.find? (·.name == key) with
      | none =>
        let rest ← colon rest
        let (store, rest) ← other key levels rest
        storeMembers members other levels steps false seen (store s) rest
      | some m =>
        if seen.contains key then .error (.unplaced (.duplicateField key) rest)
        else
          let rest ← colon rest
          let (store, rest) ← m.read levels rest
          storeMembers members other levels steps false (key :: seen) (store s) rest

/-- The members of an object, all required ones among them, from which a value is made. -/
def membersThen {σ α : Type} (blank : σ) (members : List (Member Reader σ))
    (other : String → Reader (σ → σ)) (finish : σ → Except Problem α) : Reader α :=
  fun levels bytes ↦ do
    let ((s, seen), rest) ← storeMembers members other levels (bytes.length + 1) true [] blank bytes
    match firstMissing? members seen with
    | some name => .error (.unplaced (.missingField name) rest)
    | none =>
      match finish s with
      | .ok a => return (a, rest)
      | .error problem => .error (.unplaced problem rest)

/-- Passes over a member that nobody asked for. -/
def ignored {σ : Type} : Reader (σ → σ) := fun _ bytes ↦ do return (id, ← skipValue bytes)

/-- Stores list items into the parts of a record, in order. -/
def storeItems {σ : Type} (label : String) (count : Nat) (levels : Nat) :
    List (Member Reader σ) → Nat → Bool → σ → Bytes → Except Fault (σ × Bytes)
  | [], _, _, s, bytes => .ok (s, bytes)
  | m :: members, position, first, s, bytes => do
    match ← nextItem first bytes with
    | (none, rest) =>
      if m.required then .error (.unplaced (.invalidLength position (partCount label count)) rest)
      else storeItems label count levels members (position + 1) first s rest
    | (some front, _) =>
      let (store, rest) ← m.read levels front
      storeItems label count levels members (position + 1) false (store s) rest

def record {σ : Type} (label : String) (blank : σ) (members : List (Member Reader σ)) : Reader σ :=
  fun levels bytes ↦ do
    let (b, rest) ← start bytes
    if b = 91 then
      bracketed closeList
        (fun levels rest ↦ storeItems label members.length levels members 0 true blank rest)
        levels b rest
    else if b = 123 then
      bracketed closeObject (membersThen blank members (fun _ ↦ ignored) .ok) levels b rest
    else .error (unexpected label (b :: rest))

/-! ## Values of any kind -/

/-- Buffers a value. The levels bound the depth, so they also bound the steps. -/
def valueWithin : Nat → Reader Value
  | 0 => fun _ bytes ↦ .error (.ahead .nestedTooDeep bytes)
  | steps + 1 => fun levels bytes ↦ do
    let (b, rest) ← start bytes
    if b = 110 then return (.null, ← word wordNull rest)
    else if b = 116 then return (.boolean true, ← word wordTrue rest)
    else if b = 102 then return (.boolean false, ← word wordFalse rest)
    else if b = 45 then
      let (n, rest) ← number true rest
      return (.number n, rest)
    else if isDigit b then
      let (n, rest) ← number false (b :: rest)
      return (.number n, rest)
    else if b = 34 then
      let (s, rest) ← string rest
      return (.string s, rest)
    else if b = 91 then
      let contents : Reader (List Value) := fun levels rest ↦
        items (valueWithin steps) levels (rest.length + 1) [] rest
      let (values, rest) ← bracketed closeList contents levels b rest
      return (.array values, rest)
    else if b = 123 then
      let keep (key : String) : Reader (List (String × Value) → List (String × Value)) :=
        fun levels bytes ↦ do
          let (v, rest) ← valueWithin steps levels bytes
          return (fun members ↦ (key, v) :: members, rest)
      let (members, rest) ← bracketed closeObject (membersThen [] [] keep .ok) levels b rest
      return (.object members.reverse, rest)
    else .error (.ahead .expectedValue (b :: rest))

def value : Reader Value := valueWithin maxLevels

/-- A part of a record beside which other members are kept. -/
def lifted {σ : Type} (m : Member Reader σ) : Member Reader (σ × List (String × Value)) :=
  { m with
    read := fun levels bytes ↦ do
      let (store, rest) ← m.read levels bytes
      return (fun (s, others) ↦ (store s, others), rest) }

/-- Keeps a member that the record does not know, in front of the others. -/
def keep {σ : Type} (key : String) :
    Reader (σ × List (String × Value) → σ × List (String × Value)) :=
  fun levels bytes ↦ do
    let (v, rest) ← value levels bytes
    return (fun (s, others) ↦ (s, (key, v) :: others), rest)

/-- An object of which only some members are known. -/
def gathered {σ α : Type} (label : String) (blank : σ) (members : List (Member Reader σ))
    (finish : σ → List (String × Value) → Except Problem α) : Reader α := fun levels bytes ↦ do
  let (b, rest) ← start bytes
  if b = 123 then
    let contents := membersThen (blank, []) (members.map lifted) keep
      fun (s, others) ↦ finish s others.reverse
    bracketed closeObject contents levels b rest
  else .error (unexpected label (b :: rest))

/-! ## Alternatives -/

/-- What follows a tag inside an object. -/
def payload {α : Type} : Shape Reader α → Reader α
  | .unit a => fun levels bytes ↦ do
    let (_, rest) ← unit levels bytes
    return (a, rest)
  | .single read => read
  | .fields read => read

/-- A tag on its own. -/
def bare {α : Type} (rest : Bytes) : Shape Reader α → Except Fault (α × Bytes)
  | .unit a => .ok (a, rest)
  | .single _ => .error (.unplaced (.invalidType .unitVariant "newtype variant") rest)
  | .fields _ => .error (.unplaced (.invalidType .unitVariant "struct variant") rest)

/-- The tag of an object, from behind its opening bracket. -/
def tag (bytes : Bytes) : Except Fault (String × Bytes) :=
  match skipBlanks bytes with
  | [] => .error (.ahead .endOfObject [])
  | b :: rest =>
    if b = 34 then string rest
    else if b = 125 then .error (.ahead .expectedValue (b :: rest))
    else .error (.ahead .keyMustBeString (b :: rest))

def variant {α : Type} (options : List (String × Shape Reader α)) : Reader α :=
  fun levels bytes ↦ do
    let (b, rest) ← start bytes
    if b = 34 then
      let (name, rest) ← string rest
      let (shape, rest) ← judged (Decoder.select options name) rest
      bare rest shape
    else if b = 123 then
      if levels ≤ 1 then .error (.ahead .nestedTooDeep (b :: rest))
      else
        let (name, rest) ← tag rest
        let (shape, rest) ← judged (Decoder.select options name) rest
        let rest ← colon rest
        let (a, rest) ← payload shape (levels - 1) rest
        match skipBlanks rest with
        | [] => .error (.behind .endOfObject [])
        | c :: rest =>
          if c = 125 then .ok (a, rest) else .error (.behind .expectedValue (c :: rest))
    else .error (.ahead .expectedValue (b :: rest))

instance : Source Reader where
  fail problem := fun _ bytes ↦ .error (.ahead problem bytes)
  map f read := fun levels bytes ↦ do
    let (a, rest) ← read levels bytes
    return (f a, rest)
  text := quoted "a string"
  boolean := boolean
  double := double
  natural := natural
  optional := optional
  list := list
  record := record
  fields := record
  gathered := gathered
  variant := variant

/-- Reads a whole text: a value, and nothing but blanks behind it. -/
def run {α : Type} (read : Reader α) (text : Bytes) : Except Fault α := do
  let (a, rest) ← read maxLevels text
  match skipBlanks rest with
  | [] => .ok a
  | other => .error (.ahead .trailingCharacters other)

end Reader

/-- Reads a value from a text. -/
def read {α : Type} (form : Reader α) (text : String) : Except Fault α := form.run (bytesOf text)

end ScriptWasm.Json
