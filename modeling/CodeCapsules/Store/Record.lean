import CodeCapsules.Hash
import CodeCapsules.Store.Error

/-!
Contract: records, the form in which capsules lie in the container.

A record is its length in two little-endian bytes, the four bytes of the hash,
and the code. The length counts all of it. A length of zero is no record: it
ends the list of records.

Owns:
- headers, written and read;
- the checks a header has to pass before it is written;
- the places inside a record.
-/

namespace CodeCapsules.Store

/-- How many zero bytes end the list of records. -/
def terminatorSize : Nat := 2

/-- What stands before the code: the length of the whole record and the hash. -/
structure Header where
  length : UInt16
  hash : Hash
deriving DecidableEq, Repr

namespace Header

def ofCode (hash : Hash) (code : Bytes) : Except Error Header :=
  if code.length + headerSize ≤ 65535 then .ok ⟨(code.length + headerSize).toUInt16, hash⟩
  else .error (.lengthMismatch 65535 code.length)

/-- Checks that the header can stand before a record. -/
def validate (header : Header) : Except Error Unit :=
  if header.length = 0 then .error .zeroLength
  else if header.length.toNat < headerSize then .error (.recordTooShort header.length)
  else .ok ()

def codeSize (header : Header) : Nat := header.length.toNat - headerSize

def encode (header : Header) : Bytes := Bytes.little 2 header.length.toNat ++ header.hash.toBytes

def decode? : Bytes → Option Header
  | [low, high, first, second, third, fourth] =>
    some ⟨low.toUInt16 ||| (high.toUInt16 <<< 8), ⟨first, second, third, fourth⟩⟩
  | _ => none

/-- Whether this is the header of the capsule with this length and hash. -/
def describes (header : Header) (length : UInt16) (hash : Hash) : Bool :=
  header.length == length && header.hash == hash

end Header

/-- A record that was found in a container. -/
structure Record where
  /-- Where its header starts. -/
  offset : Offset
  header : Header
deriving DecidableEq, Repr

namespace Record

def codeOffset (record : Record) : Nat := record.offset.value.toNat + headerSize

/-- The place behind the record. -/
def finish (record : Record) : Nat := record.offset.value.toNat + record.header.length.toNat

end Record

end CodeCapsules.Store
