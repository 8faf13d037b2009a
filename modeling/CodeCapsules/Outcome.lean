/-!
Contract: how a computation on the device can end.

Owns:
- the conditions that halt the processor outright;
- the split between a refusal, whose cause the caller may handle, and a halt,
  which nothing handles;
- sums and differences of machine words that halt when the word overflows.

Does not own: the causes of refusals, which belong to the parts that refuse.
-/

namespace CodeCapsules

/-- A condition that halts the processor. -/
inductive Halt where
  /-- A sum does not fit its word. -/
  | sumOverflow
  /-- A difference of unsigned words would be negative. -/
  | differenceOverflow
  /-- A range of bytes leaves the buffer it is taken from. -/
  | outOfBounds
  /-- A fault that the program itself raises, with its report. -/
  | fault (report : String)
deriving DecidableEq, Repr

/-- The report of a halt. A range out of bounds has none that is stable. -/
def Halt.report? : Halt → Option String
  | .sumOverflow => some "attempt to add with overflow"
  | .differenceOverflow => some "attempt to subtract with overflow"
  | .outOfBounds => none
  | .fault report => some report

/-- Why a computation did not produce its value. -/
inductive Stop (ε : Type) where
  /-- The operation was refused, and the caller may handle the cause. -/
  | refused (cause : ε)
  /-- The processor halted. -/
  | halted (halt : Halt)
deriving DecidableEq, Repr

/-- A value, a refusal with a cause in `ε`, or a halt. -/
abbrev Outcome (ε α : Type) : Type := Except (Stop ε) α

/-- The same stop with its cause renamed; a halt stays the halt it is. -/
def Stop.mapCause {ε ε' : Type} (rename : ε → ε') : Stop ε → Stop ε'
  | .refused cause => .refused (rename cause)
  | .halted halt => .halted halt

namespace Outcome

variable {ε ε' α : Type}

def refuse (cause : ε) : Outcome ε α := .error (.refused cause)

def halt (halt : Halt) : Outcome ε α := .error (.halted halt)

def mapCause (rename : ε → ε') : Outcome ε α → Outcome ε' α
  | .ok value => .ok value
  | .error stop => .error (stop.mapCause rename)

/-- An answer that never halts, as an outcome. -/
def ofExcept : Except ε α → Outcome ε α
  | .ok value => .ok value
  | .error cause => refuse cause

end Outcome

/-- The sum of two words, if it is a word. -/
def sum32 {ε : Type} (left right : UInt32) : Outcome ε UInt32 :=
  if left.toNat + right.toNat < UInt32.size then .ok (left + right) else Outcome.halt .sumOverflow

/-- The difference of two bytes, if it is not negative. -/
def difference8 {ε : Type} (left right : UInt8) : Outcome ε UInt8 :=
  if right ≤ left then .ok (left - right) else Outcome.halt .differenceOverflow

end CodeCapsules
