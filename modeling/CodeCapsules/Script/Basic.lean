import CodeCapsules.Disk.Basic
import CodeCapsules.Operation
import CodeCapsules.Script.Failure

/-!
Contract: what a command does, one request after another.

A script says what is asked of the disk, what is printed and what is reported,
and how each answer is used. It can be run on any disk.

Owns:
- scripts and their sequencing;
- outcomes, answers and operations as parts of scripts;
- the run of a script on a disk, and the transcript it leaves.

Main statement: a run stops at the first failure or halt, and what was printed
and written until then stands.
-/

namespace CodeCapsules

/-- What a command does. -/
inductive Script (α : Type) where
  | finish (outcome : Outcome Failure α)
  /-- Asks whether something has a path. -/
  | probe (path : String) (next : Bool → Script α)
  /-- Asks for the contents of a file. -/
  | fetch (path : String) (next : Except DiskError Bytes → Script α)
  /-- Writes a file. -/
  | store (path : String) (contents : Bytes) (next : Except DiskError Unit → Script α)
  | print (line : String) (next : Script α)
  | report (event : Event) (next : Script α)

namespace Script

variable {α β δ ε : Type}

/-- Goes on with `next`, if the first script produces its value. -/
def andThen (next : α → Script β) : Script α → Script β
  | .finish (.ok value) => next value
  | .finish (.error stop) => .finish (.error stop)
  | .probe path rest => .probe path fun answer => (rest answer).andThen next
  | .fetch path rest => .fetch path fun answer => (rest answer).andThen next
  | .store path contents rest => .store path contents fun answer => (rest answer).andThen next
  | .print line rest => .print line (rest.andThen next)
  | .report event rest => .report event (rest.andThen next)

instance : Monad Script where
  pure value := .finish (.ok value)
  bind script next := script.andThen next

def fail (failure : Failure) : Script α := .finish (Outcome.refuse failure)

def say (line : String) : Script Unit := .print line (pure ())

def note (event : Event) : Script Unit := .report event (pure ())

def isPresent (path : String) : Script Bool := .probe path pure

def contentsOf (path : String) : Script (Except DiskError Bytes) := .fetch path pure

def writeFile (path : String) (contents : Bytes) : Script (Except DiskError Unit) :=
  .store path contents pure

/-- An outcome whose refusal is a failure of the command. -/
def ofOutcome (rename : ε → Failure) (outcome : Outcome ε α) : Script α :=
  .finish (outcome.mapCause rename)

def ofExcept (rename : ε → Failure) (answer : Except ε α) : Script α :=
  ofOutcome rename (Outcome.ofExcept answer)

def noteAll (events : List Event) (next : Script α) : Script α :=
  events.foldr Script.report next

def ofLogged (rename : ε → Failure) (answer : Logged ε α) : Script α :=
  noteAll answer.events (ofOutcome rename answer.outcome)

/-- An operation on a device that the script owns. If the operation stops, so
does the script, and the device is lost. -/
def ofOperation (rename : ε → Failure) (operation : Operation δ ε α) (device : δ) :
    Script (α × δ) :=
  let (answer, device) := operation device
  noteAll answer.events (ofOutcome rename (answer.outcome.map fun value => (value, device)))

end Script

/-- What a run leaves apart from the disk. -/
structure Transcript (α : Type) where
  outcome : Outcome Failure α
  lines : List String
  events : List Event

namespace Transcript

variable {α : Type}

def output (transcript : Transcript α) : String :=
  String.join (transcript.lines.map (· ++ "\n"))

end Transcript

namespace Script

variable {α σ : Type} [Disk σ]

def run : Script α → σ → Transcript α × σ
  | .finish outcome, disk => (⟨outcome, [], []⟩, disk)
  | .probe path next, disk => (next (Disk.contains disk path)).run disk
  | .fetch path next, disk => (next (Disk.read disk path)).run disk
  | .store path contents next, disk =>
    let (answer, disk) := Disk.write disk path contents
    (next answer).run disk
  | .print line next, disk =>
    let (transcript, disk) := next.run disk
    ({ transcript with lines := line :: transcript.lines }, disk)
  | .report event next, disk =>
    let (transcript, disk) := next.run disk
    ({ transcript with events := event :: transcript.events }, disk)

end Script

end CodeCapsules
