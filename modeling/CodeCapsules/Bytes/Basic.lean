/-!
Contract: byte strings and the words written in them.

Owns:
- the type of byte strings;
- words of any width in little-endian and big-endian byte order;
- overwriting a range of a memory.
-/

namespace CodeCapsules

abbrev Bytes : Type := List UInt8

namespace Bytes

/-- `count` bytes of `value`, the least significant first. -/
def little : (count value : Nat) → Bytes
  | 0, _ => []
  | count + 1, value => value.toUInt8 :: little count (value / 256)

/-- The number whose bytes these are, the least significant first. -/
def ofLittle : Bytes → Nat
  | [] => 0
  | byte :: rest => byte.toNat + 256 * ofLittle rest

/-- `count` bytes of `value`, the most significant first. -/
def big (count value : Nat) : Bytes := (little count value).reverse

/-- The number whose bytes these are, the most significant first. -/
def ofBig (bytes : Bytes) : Nat := ofLittle bytes.reverse

@[simp]
theorem length_little (count value : Nat) : (little count value).length = count := by
  induction count generalizing value with
  | zero => rfl
  | succ count inductionHypothesis => simp [little, inductionHypothesis]

@[simp]
theorem length_big (count value : Nat) : (big count value).length = count := by
  simp [big]

/-- The memory with `bytes` written from `start` on. Bytes that would fall
outside the memory are dropped. -/
def overwrite (memory : Array UInt8) (start : Nat) : Bytes → Array UInt8
  | [] => memory
  | byte :: rest => overwrite (memory.setIfInBounds start byte) (start + 1) rest

@[simp]
theorem size_overwrite (memory : Array UInt8) (start : Nat) (bytes : Bytes) :
    (overwrite memory start bytes).size = memory.size := by
  induction bytes generalizing memory start with
  | nil => rfl
  | cons byte rest inductionHypothesis => simp [overwrite, inductionHypothesis]

end Bytes

end CodeCapsules
