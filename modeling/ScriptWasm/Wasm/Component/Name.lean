import ScriptWasm.Text.Split

/-!
# Names in components

What a component imports and exports has a name. A label is made of words with hyphens between them.
An interface is named by a path through a package, possibly with a version. Functions that belong to
a resource are named by it.

Two labels are the same if they differ in case only. So each word is in one case, and nobody can
tell two names apart that another cannot.
-/

namespace ScriptWasm.Wasm.Component

/-- What is in front of the first separator, and what is behind it, if there is one. -/
def cut (separator : Char) (text : List Char) : List Char × Option (List Char) :=
  match text.span (· ≠ separator) with
  | (front, _ :: rest) => (front, some rest)
  | (front, []) => (front, none)

/-- A letter, and letters of the same case or digits. -/
def isWord : List Char → Bool
  | [] => false
  | c :: rest =>
    (c.isLower && rest.all fun d ↦ d.isLower || d.isDigit) ||
      (c.isUpper && rest.all fun d ↦ d.isUpper || d.isDigit)

def isLabel (text : List Char) : Bool := (Text.split '-' text).all isWord

/-- A label without capital letters. -/
def isSmallLabel (text : List Char) : Bool := isLabel text && text.all (!·.isUpper)

/-! ## Versions -/

/-- A number without leading zeros. -/
def isNumber (text : List Char) : Bool :=
  text.all Char.isDigit &&
    match text with
    | [] => false
    | ['0'] => true
    | c :: _ => c ≠ '0'

/-- A number of at most 64 bits. -/
def isVersionNumber (text : List Char) : Bool :=
  isNumber text && text.foldl (fun n c ↦ 10 * n + (c.toNat - 48)) 0 < UInt64.size

/-- Letters, digits and hyphens. -/
def isTag (text : List Char) : Bool :=
  !text.isEmpty && text.all fun c ↦ c.isAlphanum || c = '-'

/-- Three numbers, possibly with the tags of a preview behind a hyphen and those of a build behind a
plus sign. A tag of a preview that looks like a number is one. -/
def isVersion (text : List Char) : Bool :=
  let (front, build?) := cut '+' text
  let (release, preview?) := cut '-' front
  (Text.split '.' release).length = 3 && (Text.split '.' release).all isVersionNumber &&
    preview?.all (fun tags ↦
      (Text.split '.' tags).all fun t ↦ isTag t && (!t.all Char.isDigit || isNumber t)) &&
    build?.all fun tags ↦ (Text.split '.' tags).all isTag

/-! ## Names -/

/-- A name space, a package and a part of it, possibly of a version. -/
def isInterface (text : List Char) : Bool :=
  let (path, version?) := cut '@' text
  version?.all isVersion &&
    match cut ':' path with
    | (space, some rest) =>
      match cut '/' rest with
      | (package, some part) => isSmallLabel space && isSmallLabel package && isLabel part
      | _ => false
    | _ => false

/-- The names of things, by their forms. Of a function that belongs to a resource, the first label
is the name of that. -/
inductive Name where
  | label (text : String)
  | interface (text : String)
  | maker (resource : String)
  | method (resource function : String)
  | companion (resource function : String)
deriving DecidableEq, Repr

namespace Name

/-- What is behind the given beginning. -/
def behind? (start text : List Char) : Option (List Char) :=
  if start.isPrefixOf text then some (text.drop start.length) else none

/-- Two labels with a dot between them. -/
def member? (text : List Char) : Option (String × String) :=
  match cut '.' text with
  | (resource, some function) =>
    if isLabel resource && isLabel function then
      some (String.ofList resource, String.ofList function)
    else none
  | _ => none

def parse? (name : String) : Option Name :=
  let text := name.toList
  match behind? "[constructor]".toList text, behind? "[method]".toList text,
    behind? "[static]".toList text with
  | some resource, _, _ => if isLabel resource then some (.maker (String.ofList resource)) else none
  | _, some rest, _ => (member? rest).map fun (resource, function) ↦ .method resource function
  | _, _, some rest => (member? rest).map fun (resource, function) ↦ .companion resource function
  | none, none, none =>
    if isLabel text then some (.label name)
    else if isInterface text then some (.interface name)
    else none

/-- Labels in one case. -/
def fold (label : String) : String := label.map Char.toLower

/-- What two names have in common exactly if they are the same. The functions that belong to a
resource have different names, whether they are given one or not. -/
def key : Name → Name
  | .label text => .label (fold text)
  | .interface text => .interface text
  | .maker resource => .maker (fold resource)
  | .method resource function | .companion resource function =>
    .method (fold resource) (fold function)

end Name

/-- Whether names are valid, and no two of them are the same. -/
def areNames (names : List String) : Bool :=
  match names.mapM Name.parse? with
  | some names => (names.map Name.key).Nodup
  | none => false

/-- Whether labels are valid, and no two of them are the same. -/
def areLabels (names : List String) : Bool :=
  names.all (isLabel ·.toList) && (names.map Name.fold).Nodup

end ScriptWasm.Wasm.Component
