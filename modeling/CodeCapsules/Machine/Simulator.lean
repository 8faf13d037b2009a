import CodeCapsules.Flash.Archive
import CodeCapsules.Machine.State
import CodeCapsules.Operation

/-!
Contract: calls of stored code on a simulated processor.

A call enters at a word address with `Y` on the return buffer, runs to the
return of the outermost call or until the budget of instructions is spent,
and then stores the result registers where `Y` points.

Owns:
- fetching, decoding and running instructions under a budget;
- the delivery of the result;
- the simulator, which keeps registers and step count of its last call.
-/

namespace CodeCapsules.Machine

open Flash (Archive)

/-- A run: how it ended, where, after how many instructions, and what it
reported, the latest first. -/
structure Run where
  outcome : Outcome Error Unit
  state : State
  steps : Nat
  events : List Event

def fetch (program : Archive) (address : InstructionAddress) : Outcome Error UInt16 :=
  (program.readWord address.toCode).mapCause .fetch

/-- Runs instructions while `budget` lasts. `limit` is the whole budget, and
`steps` and `events` are those of the run so far. -/
def runFor (program : Archive) (limit : Nat) :
    (budget : Nat) → (state : State) → (steps : Nat) → (events : List Event) → Run
  | 0, state, steps, events =>
    ⟨Outcome.refuse (.stepLimitExceeded limit), state, steps, events⟩
  | budget + 1, state, steps, events =>
    match fetch program state.next with
    | .error stop => ⟨.error stop, state, steps + 1, events⟩
    | .ok word =>
      let events := .instructionFetched state.next word :: events
      match Instruction.decode? word with
      | none =>
        ⟨Outcome.refuse (.unsupportedOpcode state.next word), state, steps + 1, events⟩
      | some instruction =>
        match state.execute instruction with
        | .error cause => ⟨Outcome.refuse cause, state, steps + 1, events⟩
        | .ok none => ⟨.ok (), state, steps + 1, events⟩
        | .ok (some state) => runFor program limit budget state (steps + 1) events

/-- Runs from a state on with a budget of instructions. -/
def run (program : Archive) (limit : Nat) (state : State) : Run :=
  runFor program limit limit state 0 []

/-- The registers of a result, the first byte first. -/
def resultBytes (registers : Registers) (width : ReturnWidth) : Bytes :=
  (registers.toList.drop width.firstRegister).take width.size

/-- Stores bytes one behind the other from a data address on. The bytes stored
before one that misses the buffer stay stored. -/
def deliver (buffer : Bytes) (address : UInt16) : Bytes → Bytes × Except Error Unit
  | [] => (buffer, .ok ())
  | byte :: rest =>
    match State.storeByte buffer address byte with
    | .error cause => (buffer, .error cause)
    | .ok buffer => deliver buffer (address + 1) rest

/-- A simulated processor between calls. -/
structure Simulator where
  /-- The registers as the last call left them. -/
  registers : Registers
  /-- How many instructions a call may take. -/
  stepLimit : UInt32
  /-- How many instructions the last call took, the final return included. -/
  steps : Nat
deriving DecidableEq, Repr

/-- A processor and the return buffer that a call fills. -/
structure Caller where
  simulator : Simulator
  buffer : Bytes
deriving DecidableEq, Repr

namespace Simulator

def start (stepLimit : UInt32) : Simulator := ⟨Vector.replicate 32 0, stepLimit, 0⟩

def standardStepLimit : UInt32 := 10000

/-- Calls the code at `entry` and delivers its result into the buffer. -/
def call (program : Archive) (entry : InstructionAddress) (width : ReturnWidth) :
    Operation Caller Error Unit := fun caller =>
  let run := run program caller.simulator.stepLimit.toNat (.enter entry caller.buffer)
  let simulator := { caller.simulator with registers := run.state.registers, steps := run.steps }
  let events := .callStarted entry width :: run.events.reverse
  match run.outcome with
  | .error stop => (⟨.error stop, events⟩, ⟨simulator, run.state.buffer⟩)
  | .ok () =>
    let result := resultBytes run.state.registers width
    match deliver run.state.buffer run.state.pointer result with
    | (buffer, .error cause) => (⟨Outcome.refuse cause, events⟩, ⟨simulator, buffer⟩)
    | (buffer, .ok ()) =>
      (⟨.ok (), events ++ [.callReturned run.steps]⟩, ⟨simulator, buffer⟩)

end Simulator

end CodeCapsules.Machine
