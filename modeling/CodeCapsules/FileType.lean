/-!
Contract: the type tag of a file in the archive.
-/

namespace CodeCapsules

/-- The tag that says what a file holds. -/
structure FileType where
  value : UInt8
deriving DecidableEq, Repr

namespace FileType

def library : FileType := ⟨0⟩

def tables : FileType := ⟨1⟩

/-- The tag of the container that holds capsules. -/
def capsuleBuffer : FileType := ⟨4⟩

/-- The name of a tag, or its number. -/
def text (type : FileType) : String :=
  if type = library then "library"
  else if type = tables then "tables"
  else if type = capsuleBuffer then "capsule-buffer"
  else s!"type#{type.value.toNat}"

end FileType

end CodeCapsules
