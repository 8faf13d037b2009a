import CodeCapsules.Flash.Error

/-!
Contract: why the machine gives up on a capsule.
-/

namespace CodeCapsules.Machine

/-- Why a call does not return. -/
inductive Error where
  /-- The word is no instruction that the machine knows. -/
  | unsupportedOpcode (address : InstructionAddress) (opcode : UInt16)
  /-- A store misses the caller's return buffer. -/
  | storeOutOfBounds (address : UInt16)
  /-- The budget is spent. -/
  | stepLimitExceeded (limit : Nat)
  /-- The next instruction cannot be read. -/
  | fetch (cause : Flash.Error)
deriving DecidableEq, Repr

def Error.message : Error → String
  | .unsupportedOpcode address opcode =>
    s!"unsupported opcode {Numeral.hex 4 opcode.toNat} at {address.text}"
  | .storeOutOfBounds address =>
    s!"store to data address {Numeral.hex 4 address.toNat} outside the return buffer"
  | .stepLimitExceeded limit => s!"capsule did not return within {limit} instructions"
  | .fetch cause => s!"instruction fetch failed: {cause.message}"

/-- The reports of the error and of its causes, the outermost first. -/
def Error.chain (error : Error) : List String :=
  match error with
  | .fetch cause => error.message :: cause.chain
  | _ => [error.message]

end CodeCapsules.Machine
