import CodeCapsules.Bytes.Crc32
import CodeCapsules.Flash.Image

/-!
Contract: images as files on disk.

A frame is the magic `CAPS`, the version and the CRC-32 of the payload, both
big-endian, and the payload. The payload holds the origin, the memory behind
its length, and the table behind its length, all little-endian: addresses and
sizes in four bytes, lengths in eight, type tags in one. A write session that
is open is not written.

Owns:
- the frame and its payload, written and read;
- the order in which the parts of a frame are checked.
-/

namespace CodeCapsules.Flash

def version : UInt32 := 1

/-- How many bytes come before the payload. -/
def frameHeaderSize : Nat := 12

namespace Entry

def encode (entry : Entry) : Bytes :=
  Bytes.little 4 entry.base.value.toNat ++ Bytes.little 4 entry.size.toNat ++ [entry.type.value]

end Entry

namespace Payload

/-- A reader takes what it needs from the front and hands on the rest. -/
abbrev Reader (α : Type) : Type := Bytes → Except SerialDefect (α × Bytes)

def takeBytes (count : Nat) : Reader Bytes := fun bytes =>
  let taken := bytes.take count
  if taken.length = count then .ok (taken, bytes.drop count) else .error .truncated

/-- Takes a little-endian number of `count` bytes. -/
def takeNumber (count : Nat) : Reader Nat := fun bytes => do
  let (taken, rest) ← takeBytes count bytes
  return (Bytes.ofLittle taken, rest)

def takeEntry : Reader Entry := fun bytes => do
  let (base, bytes) ← takeNumber 4 bytes
  let (size, bytes) ← takeNumber 4 bytes
  let (type, bytes) ← takeNumber 1 bytes
  return (⟨⟨base.toUInt32⟩, size.toUInt32, ⟨type.toUInt8⟩⟩, bytes)

def takeEntries : (count : Nat) → Reader (List Entry)
  | 0, bytes => .ok ([], bytes)
  | count + 1, bytes => do
    let (entry, bytes) ← takeEntry bytes
    let (rest, bytes) ← takeEntries count bytes
    return (entry :: rest, bytes)

def encode (image : Image) : Bytes :=
  Bytes.little 4 image.origin.toNat ++
    (Bytes.little 8 image.memory.size ++ image.memory.toList) ++
    (Bytes.little 8 image.files.length ++ image.files.flatMap Entry.encode)

/-- The image at the front of a payload. Bytes behind it are ignored. -/
def decode (payload : Bytes) : Except SerialDefect Image := do
  let (origin, bytes) ← takeNumber 4 payload
  let (size, bytes) ← takeNumber 8 bytes
  let (memory, bytes) ← takeBytes size bytes
  let (count, bytes) ← takeNumber 8 bytes
  let (files, _) ← takeEntries count bytes
  return ⟨origin.toUInt32, memory.toArray, files, none⟩

end Payload

namespace Image

def toFrame (image : Image) : Bytes :=
  let payload := Payload.encode image
  magic ++ Bytes.big 4 version.toNat ++ Bytes.big 4 (Crc32.checksum payload).toNat ++ payload

/-- The image in a frame. The magic is checked before the version, that before
the checksum, that before the payload is read, and the table last. -/
def ofFrame (frame : Bytes) : Except Error Image := do
  if frame.length < frameHeaderSize then throw (.serialization (.tooShort frame.length))
  if frame.take 4 ≠ magic then throw (.invalidMagic (frame.take 4))
  let written := (Bytes.ofBig ((frame.drop 4).take 4)).toUInt32
  if written ≠ version then throw (.unsupportedVersion written)
  let expected := (Bytes.ofBig ((frame.drop 8).take 4)).toUInt32
  let payload := frame.drop frameHeaderSize
  let actual := Crc32.checksum payload
  if actual ≠ expected then throw (.checksumMismatch expected actual)
  let image ← (Payload.decode payload).mapError .serialization
  image.validate
  return image

end Image

end CodeCapsules.Flash
