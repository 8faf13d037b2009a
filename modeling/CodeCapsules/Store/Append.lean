import CodeCapsules.Flash.WriteSession
import CodeCapsules.Store.Lookup

/-!
Contract: changing the container.

A capsule is written behind the last record, unless one with the same length
and hash is stored. A new end mark follows it where two bytes are left. An
erase only writes an end mark: three zero bytes, which cover the first even
address whatever the parity of the base.

Owns:
- appending a capsule in one write session;
- erasing the container in one write session.
-/

namespace CodeCapsules.Store

open Flash (Device WriteSession)

variable {δ : Type} [Device δ]

structure Appended where
  /-- Where the capsule is. -/
  offset : Offset
  /-- Whether it was written now; otherwise it was there before. -/
  stored : Bool
deriving DecidableEq, Repr

/-- What an append writes: the record, and an end mark if there is room. -/
def recordChunks (header : Header) (code : Bytes) (available : Nat) : List Bytes :=
  if terminatorSize ≤ available - header.length.toNat then
    [header.encode, code, List.replicate terminatorSize 0]
  else
    [header.encode, code]

/-- Writes a record at a free offset. -/
def appendAt (container : Container) (header : Header) (code : Bytes) (offset : Offset) :
    Operation δ Error Appended :=
  let available := container.capacity - offset.value.toNat
  if available < header.length.toNat then
    Operation.refuse (.containerFull offset header.length available)
  else do
    let chunks := recordChunks header code available
    (WriteSession.run container.index offset.value.toUInt32 chunks).mapCause .flash
    Operation.report (.capsuleAppended offset header.length header.hash)
    return ⟨offset, true⟩

/-- Stores a capsule unless one with its header is stored. -/
def append (container : Container) (header : Header) (code : Bytes) :
    Operation δ Error Appended := do
  Operation.ofOutcome (Outcome.ofExcept header.validate)
  if header.length.toNat ≠ headerSize + code.length then
    Operation.refuse (.lengthMismatch header.length code.length)
  else
    let device ← Operation.device
    let slot ← Operation.ofLogged
      (find (Device.archive device) container header.length header.hash)
    match slot with
    | .found offset => do
      Operation.report (.capsuleAlreadyStored offset header.hash)
      return ⟨offset, false⟩
    | .free offset => appendAt container header code offset

/-- Stores code under a hash, with the length that the code asks for. -/
def appendCode (container : Container) (hash : Hash) (code : Bytes) :
    Operation δ Error Appended := do
  let header ← Operation.ofOutcome (Outcome.ofExcept (Header.ofCode hash code))
  append container header code

/-- The mark that an erase writes. -/
def eraseMark : Bytes := [0, 0, 0]

/-- Empties the container. The bytes behind the mark stay as they are. -/
def erase (container : Container) : Operation δ Error Unit := do
  (WriteSession.run container.index 0 [eraseMark]).mapCause .flash
  Operation.report (.containerErased container.index)

end CodeCapsules.Store
