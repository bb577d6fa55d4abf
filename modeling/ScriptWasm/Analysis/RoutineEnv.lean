/-!
# Where a statement stands

While a program is checked, an environment tells which routine a statement belongs to, whether it is
inside a block, and which labels can be reached from it. It is a value that is passed on from
statement to statement.
-/

namespace ScriptWasm

/-- What a scope is the inside of. -/
inductive ScopeKind where
  /-- The program itself. -/
  | entry
  | subroutine
  /-- A body of a conditional or a loop. -/
  | block
deriving DecidableEq, Repr

/-- The open scopes, innermost first, and the labels of the routines among them. -/
structure RoutineEnv where
  scopes : List ScopeKind
  labels : List (List String)
deriving DecidableEq, Repr

namespace RoutineEnv

/-- The beginning of a program. -/
def start : RoutineEnv := ⟨[.entry], [[]]⟩

/-- Opens a scope. A subroutine has labels of its own. -/
def push (env : RoutineEnv) (kind : ScopeKind) : RoutineEnv :=
  ⟨kind :: env.scopes, if kind = .subroutine then [] :: env.labels else env.labels⟩

/-- Closes the innermost scope. -/
def pop (env : RoutineEnv) : RoutineEnv :=
  match env.scopes with
  | [] => env
  | kind :: rest => ⟨rest, if kind = .subroutine then env.labels.drop 1 else env.labels⟩

/-- What the innermost scope is the inside of. -/
def current (env : RoutineEnv) : ScopeKind := env.scopes.headD .entry

def inBlock (env : RoutineEnv) : Bool := env.current = .block

def inSubroutine (env : RoutineEnv) : Bool := env.scopes.contains .subroutine

/-- Whether a name is a label of the routine. -/
def hasLabel (env : RoutineEnv) (name : String) : Bool := (env.labels.headD []).contains name

/-- Defines a label of the routine. -/
def defineLabel (env : RoutineEnv) (name : String) : RoutineEnv :=
  match env.labels with
  | [] => env
  | names :: rest =>
    if names.contains name then env else ⟨env.scopes, (names ++ [name]) :: rest⟩

end RoutineEnv

end ScriptWasm
