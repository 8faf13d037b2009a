import CodeCapsules.Machine.Error
import CodeCapsules.Machine.Instruction

/-!
Contract: what one instruction does to the machine.

Owns:
- the state of a running capsule: registers, next instruction, pending
  returns and the caller's return buffer;
- stores into that buffer, which starts at a fixed data address;
- the effect of each instruction.
-/

namespace CodeCapsules.Machine

abbrev Registers : Type := Vector UInt8 32

/-- The data address of the caller's return buffer. -/
def bufferAddress : UInt16 := 0x0100

/-- A running capsule. -/
structure State where
  registers : Registers
  /-- The next instruction. -/
  next : InstructionAddress
  /-- Where pending calls return to, the innermost first. -/
  returns : List InstructionAddress
  /-- The caller's return buffer. -/
  buffer : Bytes
deriving DecidableEq, Repr

namespace State

/-- The pointer `Y`, which lies in registers 28 and 29. -/
def pointer (state : State) : UInt16 :=
  state.registers[28].toUInt16 ||| (state.registers[29].toUInt16 <<< 8)

/-- Puts a word into the register at `low` and the one behind it. -/
def setPair (registers : Registers) (low : Fin 31) (value : UInt16) : Registers :=
  (registers.set low.val value.toUInt8).set (low.val + 1) (value >>> 8).toUInt8

/-- The state in which a call at `entry` starts: all registers are zero but
`Y`, which points to the return buffer, and `Z`, which holds the entry. -/
def enter (entry : InstructionAddress) (buffer : Bytes) : State :=
  let registers := setPair (Vector.replicate 32 0) 28 bufferAddress
  ⟨setPair registers 30 entry.value, entry, [], buffer⟩

/-- The buffer with a byte stored at a data address. -/
def storeByte (buffer : Bytes) (address : UInt16) (value : UInt8) : Except Error Bytes :=
  if bufferAddress ≤ address ∧ address.toNat - bufferAddress.toNat < buffer.length then
    .ok (buffer.set (address.toNat - bufferAddress.toNat) value)
  else
    .error (.storeOutOfBounds address)

def following (state : State) : InstructionAddress := ⟨state.next.value + 1⟩

def setRegister (state : State) (target : Register) (value : UInt8) : State :=
  { state with registers := state.registers.set target value, next := state.following }

/-- What an instruction leads to: the state behind it, or none when the
outermost call returns. -/
def execute (state : State) : Instruction → Except Error (Option State)
  | .nop => .ok (some { state with next := state.following })
  | .ret =>
    match state.returns with
    | [] => .ok none
    | address :: returns => .ok (some { state with next := address, returns })
  | .loadImmediate target constant => .ok (some (state.setRegister (upper target) constant))
  | .move target source => .ok (some (state.setRegister target state.registers[source]))
  | .add target source =>
    .ok (some (state.setRegister target (state.registers[target] + state.registers[source])))
  | .storeAdvance source => do
    let buffer ← storeByte state.buffer state.pointer state.registers[source]
    let registers := setPair state.registers 28 (state.pointer + 1)
    return some { state with registers, buffer, next := state.following }
  | .storeAt distance source => do
    let address := state.pointer + distance.val.toUInt16
    let buffer ← storeByte state.buffer address state.registers[source]
    return some { state with buffer, next := state.following }
  | .call distance =>
    .ok (some {
      state with
      next := ⟨state.following.value + distance.toUInt16⟩
      returns := state.following :: state.returns })

end State

end CodeCapsules.Machine
