import ScriptWasm.Json.Reader

/-!
# Library manifests

A library says what it offers in a manifest: its types and their members, with everything that
decides whether a program may use them. Nothing is inferred from a library's code.

A member is reached through an import field. The field is the one that the manifest gives, or is
made from the names of the type and the member.
-/

namespace ScriptWasm

open Json

/-! ## Type references -/

/-- The type of a parameter, a result, a property or an event handler. -/
inductive TypeRef where
  | void
  /-- The one type of values that programs know. -/
  | primitive
  /-- A text in the memory of the caller. -/
  | text
  | number
  | boolean
  /-- A routine without parameters and results. -/
  | callback
  /-- A type that programs cannot express. -/
  | other (name : String)
deriving DecidableEq, Repr, Inhabited

namespace TypeRef

def ofName (name : String) : TypeRef :=
  if name = "void" then .void
  else if name = "Primitive" then .primitive
  else if name = "text" then .text
  else if name = "number" then .number
  else if name = "boolean" then .boolean
  else if name = "Callback" then .callback
  else .other name

def name : TypeRef → String
  | .void => "void"
  | .primitive => "Primitive"
  | .text => "text"
  | .number => "number"
  | .boolean => "boolean"
  | .callback => "Callback"
  | .other name => name

def form {R : Type → Type} [Source R] : R TypeRef := Source.map ofName Source.text

def toValue (t : TypeRef) : Value := .string t.name

end TypeRef

/-! ## Members -/

structure MethodDecl where
  name : String
  params : List TypeRef := []
  returns : TypeRef := .void
  isStatic : Bool := true
  isPublic : Bool := true
  isGeneric : Bool := false
  isConstructor : Bool := false
  hasSpecialName : Bool := false
  field? : Option String := none
deriving DecidableEq, Repr

structure PropertyDecl where
  name : String
  type : TypeRef
  isStatic : Bool := true
  isPublic : Bool := true
  hasSpecialName : Bool := false
  readable : Bool := true
  writable : Bool := true
  getter? : Option String := none
  setter? : Option String := none
deriving DecidableEq, Repr

structure EventDecl where
  name : String
  handler : TypeRef
  isStatic : Bool := true
  isPublic : Bool := true
  hasSpecialName : Bool := false
  subscribe? : Option String := none
deriving DecidableEq, Repr

/-- The import field of a method of a type. -/
def MethodDecl.field (m : MethodDecl) (type : String) : String :=
  m.field?.getD s!"{type}.{m.name}"

/-- The import field that reads a property of a type. -/
def PropertyDecl.getter (p : PropertyDecl) (type : String) : String :=
  p.getter?.getD s!"{type}.get_{p.name}"

/-- The import field that writes a property of a type. -/
def PropertyDecl.setter (p : PropertyDecl) (type : String) : String :=
  p.setter?.getD s!"{type}.set_{p.name}"

/-- The import field that subscribes to an event of a type. -/
def EventDecl.subscribe (e : EventDecl) (type : String) : String :=
  e.subscribe?.getD s!"{type}.add_{e.name}"

/-! ## Types and manifests -/

structure TypeDecl where
  name : String
  /-- Whether the type is offered to programs at all. -/
  isLibraryType : Bool := false
  isVisible : Bool := true
  /-- Whether editors leave the type out of their suggestions. -/
  isHidden : Bool := false
  methods : List MethodDecl := []
  properties : List PropertyDecl := []
  events : List EventDecl := []
deriving DecidableEq, Repr

structure Manifest where
  /-- The module that members are imported from, if it is not the name of the library's file. -/
  module? : Option String := none
  /-- The type that holds the operations on values, in a library that supports running programs. -/
  primitive? : Option String := none
  types : List TypeDecl := []
deriving DecidableEq, Repr, Inhabited

/-- The first type with exactly the given name. -/
def Manifest.findType? (m : Manifest) (name : String) : Option TypeDecl :=
  m.types.find? (·.name = name)

/-! ## Reading -/

section Reading

variable {R : Type → Type} [Source R]

def MethodDecl.form : R MethodDecl :=
  Source.record "struct MethodManifest" ⟨"", [], .void, true, true, false, false, false, none⟩
    [.needed "name" Source.text fun s m ↦ { m with name := s },
      .defaulted "params" (Source.list TypeRef.form) fun ts m ↦ { m with params := ts },
      .defaulted "returns" TypeRef.form fun t m ↦ { m with returns := t },
      .defaulted "static" Source.boolean fun b m ↦ { m with isStatic := b },
      .defaulted "public" Source.boolean fun b m ↦ { m with isPublic := b },
      .defaulted "generic" Source.boolean fun b m ↦ { m with isGeneric := b },
      .defaulted "constructor" Source.boolean fun b m ↦ { m with isConstructor := b },
      .defaulted "special_name" Source.boolean fun b m ↦ { m with hasSpecialName := b },
      .defaulted "export" (Source.optional Source.text) fun s m ↦ { m with field? := s }]

def PropertyDecl.form : R PropertyDecl :=
  Source.record "struct PropertyManifest" ⟨"", .void, true, true, false, true, true, none, none⟩
    [.needed "name" Source.text fun s p ↦ { p with name := s },
      .needed "type" TypeRef.form fun t p ↦ { p with type := t },
      .defaulted "static" Source.boolean fun b p ↦ { p with isStatic := b },
      .defaulted "public" Source.boolean fun b p ↦ { p with isPublic := b },
      .defaulted "special_name" Source.boolean fun b p ↦ { p with hasSpecialName := b },
      .defaulted "readable" Source.boolean fun b p ↦ { p with readable := b },
      .defaulted "writable" Source.boolean fun b p ↦ { p with writable := b },
      .defaulted "getter" (Source.optional Source.text) fun s p ↦ { p with getter? := s },
      .defaulted "setter" (Source.optional Source.text) fun s p ↦ { p with setter? := s }]

def EventDecl.form : R EventDecl :=
  Source.record "struct EventManifest" ⟨"", .void, true, true, false, none⟩
    [.needed "name" Source.text fun s e ↦ { e with name := s },
      .needed "handler" TypeRef.form fun t e ↦ { e with handler := t },
      .defaulted "static" Source.boolean fun b e ↦ { e with isStatic := b },
      .defaulted "public" Source.boolean fun b e ↦ { e with isPublic := b },
      .defaulted "special_name" Source.boolean fun b e ↦ { e with hasSpecialName := b },
      .defaulted "subscribe" (Source.optional Source.text) fun s e ↦ { e with subscribe? := s }]

def TypeDecl.form : R TypeDecl :=
  Source.record "struct TypeManifest" ⟨"", false, true, false, [], [], []⟩
    [.needed "name" Source.text fun s t ↦ { t with name := s },
      .defaulted "library_type" Source.boolean fun b t ↦ { t with isLibraryType := b },
      .defaulted "visible" Source.boolean fun b t ↦ { t with isVisible := b },
      .defaulted "hidden" Source.boolean fun b t ↦ { t with isHidden := b },
      .defaulted "methods" (Source.list MethodDecl.form) fun ms t ↦ { t with methods := ms },
      .defaulted "properties" (Source.list PropertyDecl.form)
        fun ps t ↦ { t with properties := ps },
      .defaulted "events" (Source.list EventDecl.form) fun es t ↦ { t with events := es }]

def Manifest.form : R Manifest :=
  Source.record "struct LibraryManifest" ⟨none, none, []⟩
    [.defaulted "module" (Source.optional Source.text) fun s m ↦ { m with module? := s },
      .defaulted "primitive" (Source.optional Source.text) fun s m ↦ { m with primitive? := s },
      .defaulted "types" (Source.list TypeDecl.form) fun ts m ↦ { m with types := ts }]

end Reading

/-! ## Writing -/

/-- A member of an object that is left out if there is no name. -/
def givenName (member : String) (name : Option String) : List (String × Value) :=
  match name with
  | some s => [(member, .string s)]
  | none => []

def MethodDecl.toValue (m : MethodDecl) : Value :=
  .object <|
    [("name", .string m.name), ("params", .array (m.params.map TypeRef.toValue)),
      ("returns", m.returns.toValue), ("static", .boolean m.isStatic),
      ("public", .boolean m.isPublic), ("generic", .boolean m.isGeneric),
      ("constructor", .boolean m.isConstructor), ("special_name", .boolean m.hasSpecialName)] ++
    givenName "export" m.field?

def PropertyDecl.toValue (p : PropertyDecl) : Value :=
  .object <|
    [("name", .string p.name), ("type", p.type.toValue), ("static", .boolean p.isStatic),
      ("public", .boolean p.isPublic), ("special_name", .boolean p.hasSpecialName),
      ("readable", .boolean p.readable), ("writable", .boolean p.writable)] ++
    givenName "getter" p.getter? ++ givenName "setter" p.setter?

def EventDecl.toValue (e : EventDecl) : Value :=
  .object <|
    [("name", .string e.name), ("handler", e.handler.toValue), ("static", .boolean e.isStatic),
      ("public", .boolean e.isPublic), ("special_name", .boolean e.hasSpecialName)] ++
    givenName "subscribe" e.subscribe?

def TypeDecl.toValue (t : TypeDecl) : Value :=
  .object
    [("name", .string t.name), ("library_type", .boolean t.isLibraryType),
      ("visible", .boolean t.isVisible), ("hidden", .boolean t.isHidden),
      ("methods", .array (t.methods.map MethodDecl.toValue)),
      ("properties", .array (t.properties.map PropertyDecl.toValue)),
      ("events", .array (t.events.map EventDecl.toValue))]

def Manifest.toValue (m : Manifest) : Value :=
  .object <|
    givenName "module" m.module? ++ givenName "primitive" m.primitive? ++
    [("types", .array (m.types.map TypeDecl.toValue))]

end ScriptWasm
