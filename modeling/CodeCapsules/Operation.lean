import CodeCapsules.Event
import CodeCapsules.Outcome

/-!
Contract: computations that report events, and those that also change a
device.

Owns:
- answers that only read, with the events they report;
- operations, which leave a device and events behind however they end;
- the clean-up of an operation that stops short.

Main statement: sequencing runs the second operation on the device that the
first leaves, and only if the first produced its value.
-/

namespace CodeCapsules

/-- An outcome with the events reported on the way. -/
structure Logged (ε α : Type) where
  outcome : Outcome ε α
  events : List Event

namespace Logged

variable {ε ε' α β : Type}

/-- Runs `next` on the value and puts its events behind those so far. -/
def andThen (first : Logged ε α) (next : α → Logged ε β) : Logged ε β :=
  match first.outcome with
  | .ok value => ⟨(next value).outcome, first.events ++ (next value).events⟩
  | .error stop => ⟨.error stop, first.events⟩

instance : Monad (Logged ε) where
  pure value := ⟨.ok value, []⟩
  bind := andThen

def report (event : Event) : Logged ε Unit := ⟨.ok (), [event]⟩

def ofOutcome (outcome : Outcome ε α) : Logged ε α := ⟨outcome, []⟩

def refuse (cause : ε) : Logged ε α := ofOutcome (Outcome.refuse cause)

/-- The same answer with the cause of a refusal renamed. -/
def mapCause (rename : ε → ε') (answer : Logged ε α) : Logged ε' α :=
  ⟨answer.outcome.mapCause rename, answer.events⟩

end Logged

/-- An operation on a device `δ`: it answers and leaves a device behind. -/
def Operation (δ ε α : Type) : Type := δ → Logged ε α × δ

namespace Operation

variable {δ δ' ε ε' α β : Type}

/-- Runs `next` on the device that the first operation leaves, if that one
produced its value. -/
def andThen (first : Operation δ ε α) (next : α → Operation δ ε β) : Operation δ ε β :=
  fun device =>
    match first device with
    | (⟨.ok value, events⟩, device) =>
      let (answer, device) := next value device
      (⟨answer.outcome, events ++ answer.events⟩, device)
    | (⟨.error stop, events⟩, device) => (⟨.error stop, events⟩, device)

instance : Monad (Operation δ ε) where
  pure value := fun device => (⟨.ok value, []⟩, device)
  bind := andThen

def device : Operation δ ε δ := fun device => (⟨.ok device, []⟩, device)

/-- An answer that only reads. -/
def ofLogged (answer : Logged ε α) : Operation δ ε α := fun device => (answer, device)

def ofOutcome (outcome : Outcome ε α) : Operation δ ε α := ofLogged (.ofOutcome outcome)

def report (event : Event) : Operation δ ε Unit := ofLogged (.report event)

def refuse (cause : ε) : Operation δ ε α := ofLogged (.refuse cause)

/-- The same operation with the cause of a refusal renamed. -/
def mapCause (rename : ε → ε') (operation : Operation δ ε α) : Operation δ ε' α :=
  fun device =>
    let (answer, device) := operation device
    (answer.mapCause rename, device)

/-- Runs the operation. If it stops short, `cleanUp` runs on the device it
leaves, and the stop stands whatever the clean-up answers. -/
def orCleanUp (operation : Operation δ ε α) (cleanUp : Operation δ ε' Unit) :
    Operation δ ε α :=
  fun device =>
    match operation device with
    | (⟨.ok value, events⟩, device) => (⟨.ok value, events⟩, device)
    | (⟨.error stop, events⟩, device) =>
      let (answer, device) := cleanUp device
      (⟨.error stop, events ++ answer.events⟩, device)

/-- The operation on the part `get` of a larger device, which `set` puts back. -/
def within (get : δ' → δ) (set : δ' → δ → δ') (operation : Operation δ ε α) :
    Operation δ' ε α :=
  fun whole =>
    let (answer, part) := operation (get whole)
    (answer, set whole part)

end Operation

end CodeCapsules
