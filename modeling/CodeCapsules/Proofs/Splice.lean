import CodeCapsules.Bytes.Basic
import Mathlib.Data.List.Basic

/-!
Contract: byte strings with a part of them replaced, and words of two bytes.

Owns:
- `splice`, a byte string with a chunk laid over it, and how the parts before,
  inside and behind the chunk read afterwards;
- `overwrite` on a memory as a splice of its bytes;
- the number that two little-endian bytes stand for.

Main statement: chunks laid one behind the other are one chunk.
-/

namespace CodeCapsules.Bytes

/-- The bytes with `chunk` laid over them from `start` on. -/
def splice (bytes : Bytes) (start : Nat) (chunk : Bytes) : Bytes :=
  bytes.take start ++ chunk ++ bytes.drop (start + chunk.length)

section Splice

variable {bytes chunk : Bytes} {start : Nat}

theorem length_splice (fits : start + chunk.length ≤ bytes.length) :
    (splice bytes start chunk).length = bytes.length := by
  simp only [splice, List.length_append, List.length_take, List.length_drop]
  omega

/-- What lies before the chunk stays. -/
theorem take_splice (fits : start + chunk.length ≤ bytes.length) :
    (splice bytes start chunk).take start = bytes.take start := by
  have takenLength : (bytes.take start).length = start := by
    rw [List.length_take]
    omega
  rw [splice, List.append_assoc, List.take_append_of_le_length (by omega),
    List.take_of_length_le (by omega)]

/-- From its start on, the chunk is read, and behind it what lay there. -/
theorem drop_splice (fits : start + chunk.length ≤ bytes.length) :
    (splice bytes start chunk).drop start = chunk ++ bytes.drop (start + chunk.length) := by
  have takenLength : (bytes.take start).length = start := by
    rw [List.length_take]
    omega
  rw [splice, List.append_assoc, List.drop_append_of_le_length (by omega),
    List.drop_of_length_le (by omega), List.nil_append]

theorem getElem?_splice (fits : start + chunk.length ≤ bytes.length) (place : Nat) :
    (splice bytes start chunk)[place]? =
      if start ≤ place ∧ place < start + chunk.length then chunk[place - start]?
      else bytes[place]? := by
  have takenLength : (bytes.take start).length = start := by
    rw [List.length_take]
    omega
  by_cases before : place < start
  · rw [if_neg (by omega), splice, List.append_assoc, List.getElem?_append_left (by omega),
      List.getElem?_take_of_lt before]
  · rw [splice, List.append_assoc, List.getElem?_append_right (by omega), takenLength]
    by_cases inside : place < start + chunk.length
    · rw [if_pos ⟨by omega, inside⟩, List.getElem?_append_left (by omega)]
    · rw [if_neg (by omega), List.getElem?_append_right (by omega), List.getElem?_drop]
      congr 1
      omega

/-- A byte of the second of two chunks that are laid together. -/
theorem getElem?_splice_append {left right : Bytes} (index : Nat)
    (fits : start + (left ++ right).length ≤ bytes.length) (inside : index < right.length) :
    (splice bytes start (left ++ right))[start + left.length + index]? = right[index]? := by
  rw [getElem?_splice fits, if_pos (by rw [List.length_append]; omega), Nat.add_assoc,
    Nat.add_sub_cancel_left, List.getElem?_append_right (by omega), Nat.add_sub_cancel_left]

/-- A byte that is set ahead of a chunk belongs to the chunk. -/
theorem splice_set (byte : UInt8) (fits : start + (byte :: chunk).length ≤ bytes.length) :
    splice (bytes.set start byte) (start + 1) chunk = splice bytes start (byte :: chunk) := by
  rw [List.length_cons] at fits
  apply List.ext_getElem?
  intro place
  rw [getElem?_splice (by rw [List.length_set]; omega),
    getElem?_splice (by rw [List.length_cons]; omega), List.length_cons, List.getElem?_set]
  by_cases here : start = place
  · subst here
    rw [if_neg (by omega), if_pos rfl, if_pos (by omega), if_pos (by omega), Nat.sub_self,
      List.getElem?_cons_zero]
  · by_cases inside : start + 1 ≤ place ∧ place < start + 1 + chunk.length
    · rw [if_pos inside, if_pos (by omega), show place - start = place - (start + 1) + 1 by omega,
        List.getElem?_cons_succ]
    · rw [if_neg inside, if_neg here, if_neg (by omega)]

end Splice

/-! ## Memories -/

theorem getElem?_overwrite (memory : Array UInt8) (start : Nat) (chunk : Bytes)
    (fits : start + chunk.length ≤ memory.size) (place : Nat) :
    (overwrite memory start chunk)[place]? =
      if start ≤ place ∧ place < start + chunk.length then chunk[place - start]?
      else memory[place]? := by
  induction chunk generalizing memory start with
  | nil => rw [overwrite, if_neg (by simp only [List.length_nil]; omega)]
  | cons byte rest inductionHypothesis =>
      simp only [List.length_cons] at fits
      rw [overwrite, inductionHypothesis _ _ (by simp only [Array.size_setIfInBounds]; omega)]
      by_cases here : place = start
      · subst here
        rw [if_neg (by omega), if_pos (by simp only [List.length_cons]; omega)]
        simp only [Array.getElem?_setIfInBounds, Nat.sub_self, List.getElem?_cons_zero, if_pos]
        rw [if_pos (by omega)]
      · by_cases inside : start + 1 ≤ place ∧ place < start + 1 + rest.length
        · rw [if_pos inside, if_pos (by simp only [List.length_cons]; omega)]
          rw [show place - start = place - (start + 1) + 1 by omega, List.getElem?_cons_succ]
        · rw [if_neg inside, if_neg (by simp only [List.length_cons]; omega),
            Array.getElem?_setIfInBounds_ne (by omega)]

theorem toList_overwrite (memory : Array UInt8) (start : Nat) (chunk : Bytes)
    (fits : start + chunk.length ≤ memory.size) :
    (overwrite memory start chunk).toList = splice memory.toList start chunk := by
  apply List.ext_getElem?
  intro place
  have present : memory.toList[place]? = memory[place]? := Array.getElem?_toList
  rw [Array.getElem?_toList, getElem?_overwrite _ _ _ fits, getElem?_splice (by simpa using fits),
    present]

/-- Two chunks written one behind the other are their concatenation. -/
theorem overwrite_overwrite (memory : Array UInt8) (start : Nat) (chunk next : Bytes) :
    overwrite (overwrite memory start chunk) (start + chunk.length) next =
      overwrite memory start (chunk ++ next) := by
  induction chunk generalizing memory start with
  | nil => rfl
  | cons byte rest inductionHypothesis =>
      rw [List.cons_append, overwrite, overwrite, ← inductionHypothesis, List.length_cons]
      congr 1
      omega

/-! ## Words of two bytes -/

/-- The number that two little-endian bytes stand for. -/
theorem toNat_word (low high : UInt8) :
    (low.toUInt16 ||| (high.toUInt16 <<< 8)).toNat = low.toNat + 256 * high.toNat := by
  have lowLt : low.toNat < 2 ^ 8 := low.toNat_lt
  have highLt : high.toNat < 256 := high.toNat_lt
  have shifted : (high.toUInt16 <<< 8).toNat = 2 ^ 8 * high.toNat := by
    rw [UInt16.toNat_shiftLeft]
    simp [Nat.shiftLeft_eq]
    omega
  rw [UInt16.toNat_or, shifted, Nat.or_comm, UInt8.toNat_toUInt16,
    ← Nat.two_pow_add_eq_or_of_lt lowLt]
  omega

theorem little_two (value : Nat) : little 2 value = [value.toUInt8, (value / 256).toUInt8] := rfl

/-- The two bytes of a word are read back as the word. -/
theorem word_of_little (value : UInt16) :
    value.toNat.toUInt8.toUInt16 ||| ((value.toNat / 256).toUInt8.toUInt16 <<< 8) = value := by
  have valueLt : value.toNat < 65536 := value.toNat_lt
  apply UInt16.toNat_inj.mp
  rw [toNat_word]
  simp
  omega

end CodeCapsules.Bytes
