import CodeCapsules.Bytes.Hex

/-!
Contract: why a value given from outside is not one of the store's values.
-/

namespace CodeCapsules

/-- Why a text, a byte string or a number does not denote a value. -/
inductive ValueError where
  /-- The text is not hexadecimal. -/
  | invalidHex (defect : Hex.Defect)
  /-- The byte string does not have the length of the value. -/
  | invalidLength (expected actual : Nat)
  /-- No result has this many bytes. -/
  | invalidReturnWidth (size : Nat)
deriving DecidableEq, Repr

def ValueError.message : ValueError → String
  | .invalidHex defect => s!"invalid hex string: {defect.message}"
  | .invalidLength expected actual => s!"invalid byte length: expected {expected}, got {actual}"
  | .invalidReturnWidth size => s!"unsupported return width: {size} bytes"

end CodeCapsules
