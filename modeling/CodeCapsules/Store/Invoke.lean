import CodeCapsules.Machine.Simulator
import CodeCapsules.Store.Container

/-!
Contract: calling the code of a stored capsule.

The offset is only checked against the bounds of the container. What lies
there is called, record or not.
-/

namespace CodeCapsules.Store

open Flash (Archive)
open Machine (Caller Simulator)

/-- Calls the code behind the header at an offset and collects its result. -/
def invoke (archive : Archive) (container : Container) (offset : Offset) (width : ReturnWidth) :
    Operation Caller Error Unit := do
  let caller ← Operation.device
  if caller.buffer.length < width.size then
    Operation.refuse (.returnBufferTooSmall width.size caller.buffer.length)
  else if container.capacity < offset.value.toNat + headerSize then
    Operation.refuse (.offsetOutOfRange offset container.capacity)
  else
    let code ← Operation.ofOutcome (container.codeAddress offset)
    Operation.report (.invocationStarted offset code code.toInstruction width)
    (Simulator.call archive code.toInstruction width).mapCause .execution

end CodeCapsules.Store
