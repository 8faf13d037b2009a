import CodeCapsules.FileType
import CodeCapsules.Handle
import CodeCapsules.Machine.Error
import CodeCapsules.Store.Corruption

/-!
Contract: why the store refuses.
-/

namespace CodeCapsules.Store

/-- How many bytes come before the code of a record: two of length, four of
hash. -/
def headerSize : Nat := 6

/-- Why the store refuses. -/
inductive Error where
  /-- No file of the archive has the type of the container. -/
  | containerMissing (type : FileType)
  /-- The container is larger than offsets reach. -/
  | containerTooLarge (size : Nat)
  /-- The bytes at an offset start no record. -/
  | corruptRecord (offset : Offset) (length : UInt16) (reason : Corruption)
  /-- A length of zero would read as the end of the records. -/
  | zeroLength
  /-- The length does not cover the header. -/
  | recordTooShort (length : UInt16)
  /-- The length disagrees with the code. -/
  | lengthMismatch (declared : UInt16) (codeSize : Nat)
  /-- The record does not fit behind the others. -/
  | containerFull (offset : Offset) (needed : UInt16) (available : Nat)
  /-- No code can lie behind a header at this offset. -/
  | offsetOutOfRange (offset : Offset) (capacity : Nat)
  /-- The handle was issued before an erase. -/
  | staleHandle (handle : Handle) (current : Generation)
  /-- The buffer cannot hold the result. -/
  | returnBufferTooSmall (needed actual : Nat)
  | execution (cause : Machine.Error)
  | flash (cause : Flash.Error)
deriving DecidableEq, Repr

def Error.message : Error → String
  | .containerMissing type => s!"no capsule container (file type {type.text}) in archive"
  | .containerTooLarge size =>
    s!"capsule container of {size} bytes exceeds the 16-bit offset range"
  | .corruptRecord offset _ reason =>
    s!"corrupt record at offset {offset.text}: {reason.message}"
  | .zeroLength => "capsule length must be non-zero"
  | .recordTooShort length =>
    s!"capsule length {length.toNat} is shorter than the {headerSize}-byte header"
  | .lengthMismatch declared codeSize =>
    let length := s!"declared record length {declared.toNat}"
    length ++ s!" does not match header plus {codeSize} code bytes"
  | .containerFull offset needed available =>
    let record := s!"record of {needed.toNat} bytes at offset {offset.text}"
    s!"container full: {record}, {available} bytes free"
  | .offsetOutOfRange offset capacity =>
    s!"offset {offset.text} is outside the {capacity}-byte container"
  | .staleHandle handle current =>
    s!"stale capsule handle {handle.text}: store is at generation {current.text}"
  | .returnBufferTooSmall needed actual =>
    s!"return buffer of {actual} bytes cannot hold a {needed}-byte result"
  | .execution cause => s!"execution failed: {cause.message}"
  | .flash cause => s!"flash error: {cause.message}"

/-- The reports of the error and of its causes, the outermost first. -/
def Error.chain (error : Error) : List String :=
  match error with
  | .execution cause => error.message :: cause.chain
  | .flash cause => error.message :: cause.chain
  | _ => [error.message]

end CodeCapsules.Store
