import CodeCapsules.Text.Numeral

/-!
Contract: places in program memory.

Owns:
- offsets inside a container;
- byte addresses of code and the word addresses the processor calls;
- the conversion between the two and its loss beyond 128 KiB.
-/

namespace CodeCapsules

/-- The place of a record in its container, counted from the container's
base. -/
structure Offset where
  value : UInt16
deriving DecidableEq, Repr

def Offset.text (offset : Offset) : String := s!"+{offset.value.toNat}"

/-- The address of a byte of program memory. -/
structure CodeAddress where
  value : UInt32
deriving DecidableEq, Repr

/-- The address of an instruction word, which is what a call takes. -/
structure InstructionAddress where
  value : UInt16
deriving DecidableEq, Repr

namespace CodeAddress

/-- The text of a byte address, with at least five digits. -/
def text (address : CodeAddress) : String := Numeral.hex 5 address.value.toNat

/-- Whether an instruction can start here. -/
def isWordAligned (address : CodeAddress) : Bool := address.value &&& 1 == 0

/-- The word that holds this byte. Addresses from 128 KiB on wrap around. -/
def toInstruction (address : CodeAddress) : InstructionAddress := ⟨(address.value >>> 1).toUInt16⟩

end CodeAddress

namespace InstructionAddress

/-- The text of a word address, with at least four digits. -/
def text (address : InstructionAddress) : String := Numeral.hex 4 address.value.toNat ++ "w"

/-- The first byte of the word. -/
def toCode (address : InstructionAddress) : CodeAddress := ⟨address.value.toUInt32 <<< 1⟩

end InstructionAddress

end CodeCapsules
