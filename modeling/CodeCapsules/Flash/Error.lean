import CodeCapsules.Address
import CodeCapsules.Bytes.Utf8
import CodeCapsules.Disk.Error

/-!
Contract: why the flash refuses a read, a write, or an image.
-/

namespace CodeCapsules.Flash

/-- The calls of a device that can be refused. -/
inductive Call where
  | open
  | write
  | close
  | read
  | file
deriving DecidableEq, Repr

def Call.text : Call → String
  | .open => "open"
  | .write => "write"
  | .close => "close"
  | .read => "read"
  | .file => "file"

/-- Why a layout describes no image. -/
inductive LayoutDefect where
  /-- The container is too small for the mark that an erase writes. -/
  | capacityTooSmall (capacity minimum : Nat)
  /-- The container is larger than offsets reach. -/
  | capacityTooLarge (capacity : Nat)
  /-- A file of the table does not lie inside memory. -/
  | fileOutsideMemory (index start finish memoryStart memoryEnd : Nat)
deriving DecidableEq, Repr

def LayoutDefect.message : LayoutDefect → String
  | .capacityTooSmall capacity minimum =>
    s!"capsule capacity {capacity} is below the minimum of {minimum}"
  | .capacityTooLarge capacity => s!"capsule capacity {capacity} exceeds the 16-bit offset range"
  | .fileOutsideMemory index start finish memoryStart memoryEnd =>
    let span := s!"file {index} spans {Numeral.hex 1 start}..{Numeral.hex 1 finish}"
    span ++ s!", outside memory {Numeral.hex 1 memoryStart}..{Numeral.hex 1 memoryEnd}"

/-- Why bytes do not hold an image, or why a device answers no bytes. -/
inductive SerialDefect where
  /-- The frame is shorter than its header. -/
  | tooShort (size : Nat)
  /-- The payload ends inside the image. -/
  | truncated
  /-- The device was told to refuse this call. -/
  | injected (call : Call)
deriving DecidableEq, Repr

def SerialDefect.message : SerialDefect → String
  | .tooShort size => s!"image too short: {size} bytes"
  | .truncated => "io error: unexpected end of file"
  | .injected call => s!"injected {call.text} fault"

/-- The bytes that open every framed image: `CAPS`. -/
def magic : Bytes := [0x43, 0x41, 0x50, 0x53]

/-- Why the flash refuses. -/
inductive Error where
  /-- The table has no file with this index. -/
  | fileIndexOutOfRange (index count : Nat)
  /-- The address is outside program memory. -/
  | addressOutOfRange (address : CodeAddress)
  /-- The write would leave the open file. -/
  | writeOutOfBounds (fileIndex : Nat) (offset : UInt32) (size : Nat) (capacity : UInt32)
  /-- A write or a close without an open session. -/
  | sessionNotOpen
  /-- An open while a session is open. -/
  | sessionAlreadyOpen (fileIndex : Nat)
  | invalidLayout (defect : LayoutDefect)
  /-- The frame opens with these bytes instead of the magic. -/
  | invalidMagic (found : Bytes)
  | unsupportedVersion (version : UInt32)
  /-- The checksum written in the frame is not that of its payload. -/
  | checksumMismatch (expected actual : UInt32)
  | serialization (defect : SerialDefect)
  | disk (cause : DiskError)
deriving DecidableEq, Repr

def Error.message : Error → String
  | .fileIndexOutOfRange index count =>
    s!"file index {index} out of range (archive has {count} files)"
  | .addressOutOfRange address => s!"address {address.text} is outside program memory"
  | .writeOutOfBounds fileIndex offset size capacity =>
    let write := s!"write of {size} bytes at offset {offset.toNat}"
    write ++ s!" overruns file {fileIndex} ({capacity.toNat} bytes)"
  | .sessionNotOpen => "no write session is open"
  | .sessionAlreadyOpen fileIndex => s!"a write session is already open on file {fileIndex}"
  | .invalidLayout defect => s!"invalid flash layout: {defect.message}"
  | .invalidMagic found =>
    let expected := Utf8.decodeLossy magic
    s!"invalid image magic: expected {expected}, got {Utf8.decodeLossy found}"
  | .unsupportedVersion version => s!"unsupported image version: {version.toNat}"
  | .checksumMismatch expected actual =>
    let wanted := Numeral.hex 8 expected.toNat
    s!"image checksum mismatch: expected {wanted}, got {Numeral.hex 8 actual.toNat}"
  | .serialization defect => s!"serialization error: {defect.message}"
  | .disk cause => s!"I/O error: {cause.message}"

/-- The reports of the error and of its causes, the outermost first. -/
def Error.chain (error : Error) : List String :=
  match error with
  | .disk cause => [error.message, cause.message]
  | _ => [error.message]

end CodeCapsules.Flash
