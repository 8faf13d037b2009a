import CodeCapsules.FileType
import CodeCapsules.Flash.Error
import CodeCapsules.Outcome

/-!
Contract: the read-only view of program memory and of the files in it.

Owns:
- the entry of a file in the table, and the ranges it covers;
- the archive, which answers for the table and for single bytes;
- words and byte strings, read byte by byte.
-/

namespace CodeCapsules.Flash

/-- A file in the table of the archive. -/
structure Entry where
  /-- The address of the first byte. -/
  base : CodeAddress
  /-- How many bytes the file has. -/
  size : UInt32
  type : FileType
deriving DecidableEq, Repr

namespace Entry

variable {ε : Type}

/-- The address behind the last byte. -/
def finish (entry : Entry) : Outcome ε CodeAddress := do
  return ⟨← sum32 entry.base.value entry.size⟩

/-- Whether the file covers `size` bytes from `address` on. The end of the file
matters only for addresses that are not before it. -/
def covers (entry : Entry) (address : CodeAddress) (size : UInt32) : Outcome ε Bool :=
  if entry.base.value ≤ address.value then do
    let finish ← entry.finish
    return decide (address.value.toNat + size.toNat ≤ finish.value.toNat)
  else
    return false

end Entry

/-- What can be read of the flash: the table of files and each byte. -/
structure Archive where
  fileCount : Nat
  file : Nat → Except Error Entry
  readByte : CodeAddress → Except Error UInt8

namespace Archive

/-- The little-endian word at an address. -/
def readWord (archive : Archive) (address : CodeAddress) : Outcome Error UInt16 := do
  let low ← Outcome.ofExcept (archive.readByte address)
  let high ← Outcome.ofExcept (archive.readByte ⟨← sum32 address.value 1⟩)
  return low.toUInt16 ||| (high.toUInt16 <<< 8)

/-- Reads `count` bytes from the place `index` behind `address` on. The bytes
read before a stop are kept. -/
def readFrom (archive : Archive) (address : CodeAddress) (index : Nat) :
    (count : Nat) → Bytes × Outcome Error Unit
  | 0 => ([], .ok ())
  | count + 1 =>
    let byte : Outcome Error UInt8 := do
      Outcome.ofExcept (archive.readByte ⟨← sum32 address.value index.toUInt32⟩)
    match byte with
    | .error stop => ([], .error stop)
    | .ok byte =>
      let (rest, outcome) := readFrom archive address (index + 1) count
      (byte :: rest, outcome)

def readBytes (archive : Archive) (address : CodeAddress) (count : Nat) :
    Outcome Error Bytes :=
  let (bytes, outcome) := archive.readFrom address 0 count
  outcome.map fun _ => bytes

end Archive

end CodeCapsules.Flash
