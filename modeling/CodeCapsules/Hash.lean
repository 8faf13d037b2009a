import CodeCapsules.Bytes.Blake3
import CodeCapsules.Bytes.Hex
import CodeCapsules.Bytes.Utf8
import CodeCapsules.ValueError

/-!
Contract: the four-byte hash that names a capsule.

Owns:
- the hash and its hexadecimal text;
- reading a hash from text and from bytes;
- the hash of a piece of code under a domain.
-/

namespace CodeCapsules

/-- The hash of a capsule: four bytes, compared from the first on. -/
structure Hash where
  first : UInt8
  second : UInt8
  third : UInt8
  fourth : UInt8
deriving DecidableEq, Repr

namespace Hash

def size : Nat := 4

def toBytes (hash : Hash) : Bytes := [hash.first, hash.second, hash.third, hash.fourth]

def ofBytes : Bytes → Except ValueError Hash
  | [first, second, third, fourth] => .ok ⟨first, second, third, fourth⟩
  | bytes => .error (.invalidLength size bytes.length)

def toHex (hash : Hash) : String := Hex.encode hash.toBytes

/-- The text without one leading `0x`. -/
def withoutMark : Bytes → Bytes
  | 0x30 :: 0x78 :: rest => rest
  | text => text

/-- Reads eight digits in either case, with or without a leading `0x`. -/
def ofHex (text : String) : Except ValueError Hash := do
  let bytes ← (Hex.decode (withoutMark (Utf8.encode text))).mapError .invalidHex
  ofBytes bytes

/-- The order of two hashes, decided by the first byte in which they differ. -/
def order (left right : Hash) : Ordering :=
  compareOfLessAndEq left.first right.first
    |>.then (compareOfLessAndEq left.second right.second)
    |>.then (compareOfLessAndEq left.third right.third)
    |>.then (compareOfLessAndEq left.fourth right.fourth)

/-- The domain under which the code of capsules is hashed. -/
def codeDomain : String := "capsule-code-v1"

/-- The hash of `code` under a domain: the first bytes of the BLAKE3 digest of
the domain, a colon and the code. -/
def ofContent (domain : String) (code : Bytes) : Hash :=
  let word := Blake3.leadingWord (Utf8.encode domain ++ Utf8.encode ":" ++ code)
  ⟨word.toUInt8, (word >>> 8).toUInt8, (word >>> 16).toUInt8, (word >>> 24).toUInt8⟩

/-- The hash that names a capsule with this code. -/
def ofCode (code : Bytes) : Hash := ofContent codeDomain code

end Hash

end CodeCapsules
