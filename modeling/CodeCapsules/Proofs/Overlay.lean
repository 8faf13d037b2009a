import CodeCapsules.Store.Append
import CodeCapsules.Proofs.Capsule

/-!
Contract: what the byte strings of an append and of an erase make of a
container when they are laid over its bytes.

Owns:
- capsules before the place of a change stay spelled;
- a record laid behind the last capsule, whole or only in part;
- the mark of an erase.

Main statement: a whole record adds its capsule behind the others, and its
header alone already adds a capsule, with the code that happens to stand there.
-/

namespace CodeCapsules.Store

open Bytes (splice)

section Overlay

variable {bytes chunk : Bytes} {start place : Nat} {capsules : List Capsule}

/-- Whether capsules are spelled depends on the bytes up to their end only. -/
theorem spells_take {bound : Nat} (before : start + totalSize capsules ≤ bound) :
    Spells (bytes.take bound) start capsules ↔ Spells bytes start capsules := by
  unfold Spells
  rw [List.drop_take, List.prefix_take_iff, length_encodeAll]
  constructor
  · exact fun spelled => spelled.1
  · exact fun spelled => ⟨spelled, by omega⟩

/-- Capsules that end before a change stay as they are. -/
theorem Spells.splice (spelled : Spells bytes start capsules)
    (before : start + totalSize capsules ≤ place) (fits : place + chunk.length ≤ bytes.length) :
    Spells (splice bytes place chunk) start capsules := by
  rw [← spells_take before, Bytes.take_splice fits, spells_take before]
  exact spelled

/-- The byte strings of an append, one behind the other. -/
theorem flatten_recordChunks (header : Header) (code : Bytes) (available : Nat) :
    (recordChunks header code available).flatten =
      header.encode ++ (code ++
        if terminatorSize ≤ available - header.length.toNat then [0, 0] else []) := by
  unfold recordChunks
  by_cases room : terminatorSize ≤ available - header.length.toNat
  · rw [if_pos room, if_pos room]
    simp [terminatorSize]
  · rw [if_neg room, if_neg room]
    simp

/-- A record and the end of the list behind it take no more than there is. -/
theorem length_recordChunks_le (capsule : Capsule) (available : Nat)
    (fits : capsule.size ≤ available) :
    (recordChunks capsule.header capsule.code available).flatten.length ≤ available := by
  have sized := capsule.sized
  unfold Capsule.size at fits
  rw [flatten_recordChunks, List.length_append, List.length_append, Header.length_encode]
  by_cases room : terminatorSize ≤ available - capsule.header.length.toNat
  · rw [if_pos room]
    simp only [terminatorSize, List.length_cons, List.length_nil] at room ⊢
    omega
  · rw [if_neg room, List.length_nil]
    omega

/-- A beginning of byte strings is not longer than all of them. -/
theorem length_flatten_le_of_begins {sent chunks : List Bytes} (began : sent <+: chunks) :
    sent.flatten.length ≤ chunks.flatten.length := by
  obtain ⟨rest, restEq⟩ := began
  rw [← restEq, List.flatten_append, List.length_append]
  omega

/-- An append sends its header first, and then its code. -/
theorem eq_of_prefix_recordChunks {header : Header} {code chunk : Bytes} {available : Nat}
    {sent : List Bytes} (began : chunk :: sent <+: recordChunks header code available) :
    chunk = header.encode ∧ (sent = [] ∨ ∃ rest, sent = code :: rest) := by
  have behind : ∃ last, recordChunks header code available = header.encode :: code :: last := by
    unfold recordChunks
    split
    · exact ⟨_, rfl⟩
    · exact ⟨_, rfl⟩
  obtain ⟨last, chunksEq⟩ := behind
  rw [chunksEq, List.cons_prefix_cons] at began
  refine ⟨began.1, ?_⟩
  cases sent with
  | nil => exact .inl rfl
  | cons next rest => exact .inr ⟨rest, by rw [(List.cons_prefix_cons.mp began.2).1]⟩

/-- A header laid at a place, with what stands behind it afterwards. -/
theorem exists_capsule_of_splice {header : Header} {more : Bytes}
    (fits : place + (header.encode ++ more).length ≤ bytes.length)
    (covered : headerSize ≤ header.length.toNat)
    (room : place + header.length.toNat ≤ bytes.length) :
    ∃ capsule : Capsule, capsule.header = header ∧
      capsule.code = (more ++ bytes.drop (place + (header.encode ++ more).length)).take
        (header.length.toNat - headerSize) ∧
      Spells (splice bytes place (header.encode ++ more)) place [capsule] := by
  apply exists_capsule _ covered
  · rw [Bytes.length_splice fits]
    exact room
  · rw [Bytes.drop_splice fits, List.append_assoc]

/-- A whole record laid behind the last capsule adds its capsule, and the list
ends behind it. -/
theorem Contains.splice_record (contained : Contains bytes start capsules) (capsule : Capsule)
    (fits : start + totalSize capsules + capsule.size ≤ bytes.length) :
    Contains (splice bytes (start + totalSize capsules)
      (recordChunks capsule.header capsule.code
        (bytes.length - (start + totalSize capsules))).flatten)
      start (capsules ++ [capsule]) := by
  have sized := capsule.sized
  have positive := capsule.headerSize_le_size
  unfold headerSize at sized positive
  have chunksLe := length_recordChunks_le capsule
    (bytes.length - (start + totalSize capsules)) (by omega)
  have chunksFit : start + totalSize capsules +
      (recordChunks capsule.header capsule.code
        (bytes.length - (start + totalSize capsules))).flatten.length ≤ bytes.length := by
    omega
  refine ⟨spells_append.mpr ⟨contained.spelled.splice (Nat.le_refl _) chunksFit, ?_⟩, ?_⟩
  · unfold Spells
    rw [Bytes.drop_splice chunksFit, encodeAll_singleton, flatten_recordChunks]
    simp [Capsule.encode]
  · unfold Ends
    rw [Bytes.length_splice chunksFit, totalSize_append, totalSize_cons, totalSize_nil,
      Nat.add_zero, ← Nat.add_assoc]
    by_cases room : terminatorSize ≤
        bytes.length - (start + totalSize capsules) - capsule.header.length.toNat
    · left
      have chunksEq := flatten_recordChunks capsule.header capsule.code
        (bytes.length - (start + totalSize capsules))
      rw [if_pos room, ← List.append_assoc] at chunksEq
      rw [chunksEq] at chunksFit ⊢
      have recordLength : (capsule.header.encode ++ capsule.code).length = capsule.size :=
        capsule.length_encode
      have lowAt := Bytes.getElem?_splice_append 0 chunksFit (by decide)
      have highAt := Bytes.getElem?_splice_append 1 chunksFit (by decide)
      rw [recordLength] at lowAt highAt
      refine ⟨?_, lowAt, highAt⟩
      unfold terminatorSize at room ⊢
      unfold Capsule.size at fits ⊢
      omega
    · right
      unfold terminatorSize Capsule.size at *
      omega

/-- The mark of an erase leaves no capsule, whichever place is the first. -/
theorem contains_splice_eraseMark (first : start ≤ 1) (room : eraseMark.length ≤ bytes.length) :
    Contains (splice bytes 0 eraseMark) start [] := by
  have fits : 0 + eraseMark.length ≤ bytes.length := by omega
  have zeroAt : ∀ place, place < 3 → (splice bytes 0 eraseMark)[place]? = some 0 := by
    intro place before
    rw [Bytes.getElem?_splice fits, if_pos (by simp only [eraseMark, List.length_cons]; omega)]
    rcases (by omega : place = 0 ∨ place = 1 ∨ place = 2) with isZero | isOne | isTwo
    · rw [isZero]
      rfl
    · rw [isOne]
      rfl
    · rw [isTwo]
      rfl
  refine ⟨spells_nil, .inl ⟨?_, zeroAt _ ?_, zeroAt _ ?_⟩⟩
  · rw [Bytes.length_splice fits, totalSize_nil]
    simp only [eraseMark, List.length_cons, List.length_nil, terminatorSize] at room ⊢
    omega
  · rw [totalSize_nil]
    omega
  · rw [totalSize_nil]
    omega

end Overlay

end CodeCapsules.Store
