import ScriptWasm.Library.Manifest
import ScriptWasm.Library.Registry

/-!
# Scanning libraries

A scan reduces libraries to what programs can call. A type has to be marked as a library type and be
visible. Its members have to be public and static, without a special name, and of a shape that
programs can express.

Within a type the first member of a name is taken, for each kind of member. Over all libraries the
last type of a name is taken; a type of which no member can be called is not entered, and replaces
nothing.
-/

namespace ScriptWasm

/-- A library with the module that its members are imported from. -/
structure Library where
  module : String
  manifest : Manifest
deriving Repr

/-! ## Eligible members -/

/-- A method takes values and returns a value or nothing. -/
def MethodDecl.isEligible (m : MethodDecl) : Bool :=
  m.isStatic && m.isPublic && !m.isGeneric && !m.isConstructor && !m.hasSpecialName &&
    (m.returns = .void || m.returns = .primitive) && m.params.all (· = .primitive)

/-- A property holds a value. -/
def PropertyDecl.isEligible (p : PropertyDecl) : Bool :=
  p.isStatic && p.isPublic && !p.hasSpecialName && p.type = .primitive

/-- The handler of an event is a routine. -/
def EventDecl.isEligible (e : EventDecl) : Bool :=
  e.isStatic && e.isPublic && !e.hasSpecialName && e.handler = .callback

/-- A type is marked and visible. -/
def TypeDecl.isOffered (t : TypeDecl) : Bool := t.isLibraryType && t.isVisible

/-! ## Descriptors -/

def MethodDecl.describe (module type : String) (m : MethodDecl) : MethodDescriptor where
  type := type
  name := m.name
  source := ⟨module, m.field type⟩
  paramCount := m.params.length
  returnsValue := m.returns = .primitive

def PropertyDecl.describe (module type : String) (p : PropertyDecl) : PropertyDescriptor where
  type := type
  name := p.name
  getter? := if p.readable then some ⟨module, p.getter type⟩ else none
  setter? := if p.writable then some ⟨module, p.setter type⟩ else none

def EventDecl.describe (module type : String) (e : EventDecl) : EventDescriptor where
  type := type
  name := e.name
  subscribe := ⟨module, e.subscribe type⟩

/-- The members of a list, by the keys of their names; the first of a name is taken. -/
def KeyTable.ofMembers {α β : Type} (name : α → String) (describe : α → β) (members : List α) :
    KeyTable β :=
  members.foldl (fun t a ↦ t.insertNew (Registry.key (name a)) (describe a)) .empty

/-- What programs may call on a type. -/
def TypeDecl.describe (module : String) (t : TypeDecl) : TypeDescriptor where
  name := t.name
  isHidden := t.isHidden
  methods := .ofMembers MethodDecl.name (MethodDecl.describe module t.name)
    (t.methods.filter MethodDecl.isEligible)
  properties := .ofMembers PropertyDecl.name (PropertyDecl.describe module t.name)
    (t.properties.filter PropertyDecl.isEligible)
  events := .ofMembers EventDecl.name (EventDecl.describe module t.name)
    (t.events.filter EventDecl.isEligible)

/-! ## The scan -/

namespace Registry

/-- Enters a type if it is offered and something on it can be called. -/
def addType (module : String) (r : Registry) (t : TypeDecl) : Registry :=
  if t.isOffered then
    let d := t.describe module
    if d.isEmpty then r else r.insert d
  else r

def addLibrary (r : Registry) (l : Library) : Registry :=
  l.manifest.types.foldl (addType l.module) r

/-- The registry of libraries that are scanned one after the other. -/
def scan (libraries : List Library) : Registry := libraries.foldl addLibrary empty

end Registry

/-- Whether a library offers a type, even one without members that can be called. -/
def Library.offersTypes (l : Library) : Bool := l.manifest.types.any TypeDecl.isOffered

end ScriptWasm
