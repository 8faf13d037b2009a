import CodeCapsules.Flash.Archive
import CodeCapsules.Operation
import CodeCapsules.Store.Error

/-!
Contract: the file of the archive in which capsules are stored.

Owns:
- finding the container among the files;
- its place, its capacity, and the addresses inside it.

The table of files never changes, so a container that was found stays valid.
-/

namespace CodeCapsules.Store

open Flash (Archive)

/-- The container: its place in the table and its entry there. -/
structure Container where
  index : Nat
  entry : Flash.Entry
  /-- Offsets reach every byte. -/
  reachable : entry.size.toNat ≤ 65535
deriving DecidableEq, Repr

namespace Container

variable {ε : Type}

/-- The container in a file, unless the file is too large for offsets. -/
def ofEntry (index : Nat) (entry : Flash.Entry) : Except Error Container :=
  if reachable : entry.size.toNat ≤ 65535 then .ok ⟨index, entry, reachable⟩
  else .error (.containerTooLarge entry.size.toNat)

/-- The address of the first byte. -/
def base (container : Container) : CodeAddress := container.entry.base

def capacity (container : Container) : Nat := container.entry.size.toNat

/-- Where the first record starts. A container at an odd address leaves one
byte free, so that code starts at even addresses. -/
def firstOffset (container : Container) : Offset :=
  if container.base.isWordAligned then ⟨0⟩ else ⟨1⟩

def addressOf (container : Container) (place : Nat) : Outcome ε CodeAddress := do
  return ⟨← sum32 container.base.value place.toUInt32⟩

/-- The address of the code of the record at an offset. -/
def codeAddress (container : Container) (offset : Offset) : Outcome ε CodeAddress :=
  container.addressOf (offset.value.toNat + headerSize)

end Container

/-- Looks for a file of the type among the next `count` files from `index` on. -/
def locateFrom (archive : Archive) (type : FileType) (index : Nat) :
    (count : Nat) → Logged Error Nat
  | 0 => .refuse (.containerMissing type)
  | count + 1 =>
    match archive.file index with
    | .error cause => .refuse (.flash cause)
    | .ok entry =>
      if entry.type = type then do
        Logged.report (.containerLocated index type)
        return index
      else
        locateFrom archive type (index + 1) count

/-- The index of the first file of the type. -/
def locate (archive : Archive) (type : FileType) : Logged Error Nat :=
  locateFrom archive type 0 archive.fileCount

/-- Like `locate`, but halts where that refuses: firmware without a container
is malformed. -/
def locateOrHalt (archive : Archive) (type : FileType) : Logged Error Nat :=
  let located := locate archive type
  match located.outcome with
  | .error (.refused cause) =>
    ⟨Outcome.halt (.fault s!"capsule store fault: {cause.message}"), located.events⟩
  | _ => located

/-- Finds the container and reads its entry. -/
def Container.locate (archive : Archive) (type : FileType) : Logged Error Container := do
  let index ← Store.locate archive type
  let entry ← Logged.ofOutcome ((Outcome.ofExcept (archive.file index)).mapCause .flash)
  Logged.ofOutcome (Outcome.ofExcept (Container.ofEntry index entry))

/-- The address of the code of the record at an offset, with the container
looked for anew. -/
def resolve (archive : Archive) (type : FileType) (offset : Offset) :
    Logged Error CodeAddress := do
  let container ← Container.locate archive type
  Logged.ofOutcome (container.codeAddress offset)

end CodeCapsules.Store
