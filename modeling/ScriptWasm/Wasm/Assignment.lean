import ScriptWasm.Wasm.Instr

/-!
# Locals are set before they are read

A local of a type without a default has no value until it is set. Code may read it only where it has
certainly been set: earlier in the same block, or in front of a block around it. What a block sets
is not counted behind it.

This does not depend on the operand stack, so it is checked on its own.
-/

namespace ScriptWasm.Wasm

mutual

/-- The locals that have certainly been set behind an instruction, if it reads no other. The locals
that are `safe` have a value from the start. -/
def assignInstr (safe : Nat → Bool) (set : List Nat) : Instr → Option (List Nat)
  | .localGet i => if safe i || set.contains i then some set else none
  | .localSet i | .localTee i => some (if safe i then set else i :: set)
  | .block _ body | .loop _ body | .ifThen _ body | .tryTable _ _ body =>
    (assignInstrs safe set body).map fun _ ↦ set
  | .ifElse _ yes no =>
    (assignInstrs safe set yes).bind fun _ ↦ (assignInstrs safe set no).map fun _ ↦ set
  | _ => some set

/-- The locals that have certainly been set behind instructions. -/
def assignInstrs (safe : Nat → Bool) (set : List Nat) : List Instr → Option (List Nat)
  | [] => some set
  | i :: rest => (assignInstr safe set i).bind fun set ↦ assignInstrs safe set rest

end

/-- Whether a body sets every local before it reads it. The first `params` locals have been set by
the caller, and others may have a default. -/
def setsBeforeReading (params : Nat) (locals : List ValType) (body : List Instr) : Bool :=
  let safe (i : Nat) : Bool := i < params || locals[i]?.any (·.hasDefault)
  locals.all (·.hasDefault) || (assignInstrs safe [] body).isSome

end ScriptWasm.Wasm
