import CodeCapsules.Store.Container
import CodeCapsules.Store.Record

/-!
Contract: walking the records of a container.

The walk starts at the first even address and goes from record to record. It
ends at a length of zero, where no length fits any more, or at the first
place that cannot be read or is corrupt. Where it ends without an error, free
space begins.

Owns:
- one step of the walk, and the whole walk;
- the records, and the occupied part of the container.

Main statement: every step that yields something shortens what remains of the
walk, so that the walk ends on any archive.
-/

namespace CodeCapsules.Store

open Flash (Archive)

/-- A walk in progress. Places are counted from the base of the container and
never exceed 65536, so the sums below stay far inside a 32-bit word. -/
structure Scan where
  container : Container
  /-- Where the next record would start. -/
  position : Nat
  /-- Whether the walk has ended. -/
  finished : Bool
deriving DecidableEq, Repr

/-- What a step of the walk yields. -/
abbrev Item : Type := Outcome Error Record

namespace Scan

def start (container : Container) : Scan :=
  ⟨container, container.firstOffset.value.toNat, false⟩

def offset (scan : Scan) : Offset := ⟨scan.position.toUInt16⟩

def readLength (scan : Scan) (archive : Archive) : Outcome Error UInt16 := do
  let address ← scan.container.addressOf scan.position
  (archive.readWord address).mapCause .flash

def readHash (scan : Scan) (archive : Archive) : Outcome Error Hash := do
  let address ← scan.container.addressOf (scan.position + 2)
  let bytes ← (archive.readBytes address Hash.size).mapCause .flash
  match bytes with
  | [first, second, third, fourth] => return ⟨first, second, third, fourth⟩
  | _ => Outcome.halt .outOfBounds

/-- The refusal of the present place. -/
def corrupt (scan : Scan) (length : UInt16) (reason : Corruption) : Item :=
  Outcome.refuse (.corruptRecord scan.offset length reason)

/-- One step: what it yields, if the walk has not ended, and the walk after
it. The end of a record is checked before its hash is read, so that nothing
behind the container is read. -/
def next (scan : Scan) (archive : Archive) : Option Item × Scan :=
  let ended := { scan with finished := true }
  if scan.finished ∨ scan.container.capacity < scan.position + terminatorSize then
    (none, ended)
  else
    match scan.readLength archive with
    | .error stop => (some (.error stop), ended)
    | .ok length =>
      if length.toNat = 0 then (none, ended)
      else if length.toNat < headerSize then
        (some (scan.corrupt length (.shorterThanHeader length.toNat)), ended)
      else if scan.container.capacity < scan.position + length.toNat then
        let finish := scan.position + length.toNat
        (some (scan.corrupt length (.pastEnd finish scan.container.capacity)), ended)
      else
        match scan.readHash archive with
        | .error stop => (some (.error stop), ended)
        | .ok hash =>
          (some (.ok ⟨scan.offset, ⟨length, hash⟩⟩),
            { scan with position := scan.position + length.toNat })

/-- A bound on how many items the walk still yields. -/
def remaining (scan : Scan) : Nat :=
  if scan.finished then 0 else scan.container.capacity + 1 - scan.position

/-- A step that yields something shortens what remains of the walk. -/
theorem remaining_next_lt {scan after : Scan} {archive : Archive} {item : Item}
    (stepped : scan.next archive = (some item, after)) : after.remaining < scan.remaining := by
  unfold next at stepped
  simp only [terminatorSize, headerSize] at stepped
  repeat' split at stepped
  all_goals simp only [Prod.mk.injEq, reduceCtorEq, false_and] at stepped
  all_goals
    obtain ⟨-, rfl⟩ := stepped
    simp_all [remaining]
    try omega

/-- The whole walk: all items, and the walk at its end. -/
def collect (scan : Scan) (archive : Archive) : List Item × Scan :=
  match _stepped : scan.next archive with
  | (none, after) => ([], after)
  | (some item, after) =>
    let (items, last) := after.collect archive
    (item :: items, last)
termination_by scan.remaining
decreasing_by exact remaining_next_lt _stepped

end Scan

/-- The events that an item brings: a corrupt record is reported. -/
def itemEvents : Item → List Event
  | .error (.refused (.corruptRecord offset length reason)) =>
    [.recordCorrupt offset.value.toNat length reason]
  | _ => []

/-- The records that items stand for, up to the first that is none. -/
def recordsOf : List Item → Logged Error (List Record)
  | [] => pure []
  | item :: items => do
    let record ← ⟨item, itemEvents item⟩
    let records ← recordsOf items
    return record :: records

/-- All records of a container, or why there is no such list. -/
def records (archive : Archive) (container : Container) : Logged Error (List Record) :=
  recordsOf ((Scan.start container).collect archive).1

/-- How many bytes come before free space. -/
def usedBytes (archive : Archive) (container : Container) : Logged Error Nat := do
  let (items, last) := (Scan.start container).collect archive
  let _ ← recordsOf items
  return last.offset.value.toNat

def freeBytes (archive : Archive) (container : Container) : Logged Error Nat := do
  return container.capacity - (← usedBytes archive container)

end CodeCapsules.Store
