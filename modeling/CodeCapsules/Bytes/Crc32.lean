import CodeCapsules.Bytes.Basic

/-!
Contract: the CRC-32 checksum of IEEE 802.3, bit-reflected, with the register
started and finished by all ones.
-/

namespace CodeCapsules.Crc32

/-- The reflected generator polynomial. -/
def polynomial : UInt32 := 0xEDB88320

/-- One bit of the division: the register moves down one place, and the
polynomial is added when a one falls out. -/
def shift (register : UInt32) : UInt32 :=
  if register &&& 1 = 1 then (register >>> 1) ^^^ polynomial else register >>> 1

/-- One byte of the division: the byte is added, then eight bits are shifted
out. -/
def absorb (register : UInt32) (byte : UInt8) : UInt32 :=
  shift (shift (shift (shift (shift (shift (shift (shift (register ^^^ byte.toUInt32))))))))

def checksum (bytes : Bytes) : UInt32 :=
  bytes.foldl absorb 0xFFFFFFFF ^^^ 0xFFFFFFFF

def checksumOfMemory (memory : Array UInt8) : UInt32 :=
  checksum memory.toList

end CodeCapsules.Crc32
