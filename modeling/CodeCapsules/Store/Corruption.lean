/-!
Contract: why bytes of a container are no record.
-/

namespace CodeCapsules.Store

/-- Why a length field starts no record. -/
inductive Corruption where
  /-- The length does not even cover the header. -/
  | shorterThanHeader (length : Nat)
  /-- The record would end behind the container. -/
  | pastEnd (finish capacity : Nat)
deriving DecidableEq, Repr

def Corruption.message : Corruption → String
  | .shorterThanHeader length => s!"length {length} is shorter than the record header"
  | .pastEnd finish capacity => s!"record ends at {finish}, past the {capacity}-byte container"

end CodeCapsules.Store
