import CodeCapsules.Proofs.Framing
import Mathlib.Logic.Function.Iterate

/-!
Contract: which damage to a frame the checksum detects.

The register of the checksum moves by a map that is linear in exclusive or and
loses nothing. So two byte strings that differ in a window of four bytes leave
different registers behind the window, and everything behind it keeps them
apart.

Owns:
- one shift of the register: linear and injective;
- four bytes as one word that is added to the register;
- byte strings that differ in one short window only;
- the verdict on a damaged frame.

Main statement: a frame that is damaged in its header only, or in one window of
four bytes of its payload only, is refused, and the refusal names the first part
of the frame that does not fit.
-/

namespace CodeCapsules

namespace Crc32

/-! ## One shift -/

theorem toNat_low (register : UInt32) : (register &&& 1).toNat = register.toNat % 2 := by
  rw [UInt32.toNat_and]
  exact Nat.and_one_is_mod _

theorem toNat_half (register : UInt32) : (register >>> 1).toNat = register.toNat / 2 := by
  rw [UInt32.toNat_shiftRight]
  exact Nat.shiftRight_eq_div_pow _ 1

theorem low_cases (register : UInt32) : register &&& 1 = 0 ∨ register &&& 1 = 1 := by
  rcases Nat.mod_two_eq_zero_or_one register.toNat with even | odd
  · left
    apply UInt32.toNat_inj.mp
    rw [toNat_low, even]
    rfl
  · right
    apply UInt32.toNat_inj.mp
    rw [toNat_low, odd]
    rfl

theorem low_xor (left right : UInt32) :
    (left ^^^ right) &&& 1 = (left &&& 1) ^^^ (right &&& 1) := by
  apply UInt32.toNat_inj.mp
  simp only [UInt32.toNat_and, UInt32.toNat_xor]
  exact Nat.and_xor_distrib_right

/-- A shift adds nothing that depends on both summands. -/
theorem shift_xor (left right : UInt32) :
    shift (left ^^^ right) = shift left ^^^ shift right := by
  unfold shift
  rw [low_xor, UInt32.shiftRight_xor]
  rcases low_cases left with leftLow | leftLow <;> rcases low_cases right with rightLow | rightLow
  all_goals simp only [leftLow, rightLow]
  · rfl
  · exact UInt32.xor_assoc _ _ _
  · show left >>> 1 ^^^ right >>> 1 ^^^ polynomial = left >>> 1 ^^^ polynomial ^^^ right >>> 1
    ac_rfl
  · show left >>> 1 ^^^ right >>> 1 =
      left >>> 1 ^^^ polynomial ^^^ (right >>> 1 ^^^ polynomial)
    rw [UInt32.xor_assoc, UInt32.xor_comm (right >>> 1), ← UInt32.xor_assoc polynomial,
      UInt32.xor_self, UInt32.zero_xor]

/-- The highest bit of the polynomial tells whether a one fell out, so that
nothing but zero is shifted to zero. -/
theorem eq_zero_of_shift {register : UInt32} (shifted : shift register = 0) : register = 0 := by
  have half := toNat_half register
  have low := toNat_low register
  have registerLt := register.toNat_lt
  unfold shift at shifted
  split at shifted
  · have halfEq : register >>> 1 = polynomial := UInt32.xor_eq_zero_iff.mp shifted
    rw [halfEq, show polynomial.toNat = 3988292384 from rfl] at half
    omega
  · rename_i even
    have lowEq : register &&& 1 = 0 := (low_cases register).resolve_right even
    apply UInt32.toNat_inj.mp
    rw [shifted, UInt32.toNat_zero] at half
    rw [lowEq, UInt32.toNat_zero] at low
    rw [UInt32.toNat_zero]
    omega

theorem shift_injective : Function.Injective shift := by
  intro left right same
  apply UInt32.xor_eq_zero_iff.mp
  apply eq_zero_of_shift
  rw [shift_xor, same, UInt32.xor_self]

theorem iterate_shift_xor (count : Nat) (left right : UInt32) :
    shift^[count] (left ^^^ right) = shift^[count] left ^^^ shift^[count] right := by
  induction count generalizing left right with
  | zero => rfl
  | succ count inductionHypothesis =>
      rw [Function.iterate_succ_apply, Function.iterate_succ_apply, Function.iterate_succ_apply,
        shift_xor]
      exact inductionHypothesis _ _

/-- As long as only zeros fall out, the register just moves down. -/
theorem iterate_shift_two_pow_mul (count number : Nat) (fits : 2 ^ count * number < UInt32.size) :
    shift^[count] (2 ^ count * number).toUInt32 = number.toUInt32 := by
  induction count with
  | zero => simp
  | succ count inductionHypothesis =>
      have double : 2 ^ (count + 1) * number = 2 * (2 ^ count * number) := by
        rw [Nat.pow_succ, Nat.mul_comm (2 ^ count) 2, Nat.mul_assoc]
      rw [double] at fits ⊢
      generalize 2 ^ count * number = rest at fits inductionHypothesis ⊢
      have restNat : rest.toUInt32.toNat = rest := toNat_toUInt32 (by omega)
      have doubleNat : (2 * rest).toUInt32.toNat = 2 * rest := toNat_toUInt32 fits
      have even : ¬ (2 * rest).toUInt32 &&& 1 = 1 := by
        intro odd
        have low := toNat_low (2 * rest).toUInt32
        rw [odd, doubleNat, UInt32.toNat_one] at low
        omega
      have moved : shift (2 * rest).toUInt32 = rest.toUInt32 := by
        unfold shift
        rw [if_neg even]
        apply UInt32.toNat_inj.mp
        rw [toNat_half, doubleNat, restNat]
        omega
      rw [Function.iterate_succ_apply, moved]
      exact inductionHypothesis (by omega)

/-! ## Windows -/

theorem absorb_eq (register : UInt32) (byte : UInt8) :
    absorb register byte = shift^[8] (register ^^^ byte.toUInt32) := rfl

/-- A byte in front of a number is added to it eight places up. -/
theorem toUInt32_add_eq_xor (byte : UInt8) (number : Nat) (fits : 2 ^ 8 * number < UInt32.size) :
    (byte.toNat + 256 * number).toUInt32 = byte.toUInt32 ^^^ (2 ^ 8 * number).toUInt32 := by
  have byteLt : byte.toNat < 2 ^ 8 := byte.toNat_lt
  have sumFits : byte.toNat + 256 * number < UInt32.size := by
    have sizeEq : UInt32.size = 2 ^ 8 * 2 ^ 24 := rfl
    omega
  apply UInt32.toNat_inj.mp
  rw [UInt32.toNat_xor, toNat_toUInt32 sumFits, toNat_toUInt32 fits, UInt8.toNat_toUInt32]
  apply Nat.eq_of_testBit_eq
  intro place
  rw [show byte.toNat + 256 * number = 2 ^ 8 * number + byte.toNat by omega,
    Nat.testBit_two_pow_mul_add _ byteLt, Nat.testBit_xor, Nat.testBit_two_pow_mul]
  by_cases low : place < 8
  · rw [if_pos low, decide_eq_false (by omega)]
    simp
  · have beyond : byte.toNat.testBit place = false := by
      apply Nat.testBit_lt_two_pow
      calc byte.toNat < 2 ^ 8 := byteLt
        _ ≤ 2 ^ place := Nat.pow_le_pow_right (by decide) (by omega)
    rw [if_neg low, decide_eq_true (by omega), beyond]
    simp

/-- Up to four bytes are absorbed as one word, which is added to the register
before all of them are shifted out. -/
theorem foldl_absorb_eq (register : UInt32) (bytes : Bytes) (short : bytes.length ≤ 4) :
    bytes.foldl absorb register =
      shift^[8 * bytes.length] (register ^^^ (Bytes.ofLittle bytes).toUInt32) := by
  induction bytes generalizing register with
  | nil => exact UInt32.xor_zero.symm
  | cons byte rest inductionHypothesis =>
      rw [List.length_cons] at short
      have restLt : 2 ^ 8 * Bytes.ofLittle rest < UInt32.size := by
        have valueLt := Bytes.ofLittle_lt rest
        have powLe : 256 ^ rest.length ≤ 256 ^ 3 := Nat.pow_le_pow_right (by decide) (by omega)
        have sizeEq : UInt32.size = 2 ^ 8 * 256 ^ 3 := rfl
        omega
      calc (byte :: rest).foldl absorb register
          = shift^[8 * rest.length]
              (shift^[8] (register ^^^ byte.toUInt32) ^^^ (Bytes.ofLittle rest).toUInt32) := by
            rw [List.foldl_cons, inductionHypothesis _ (by omega), absorb_eq]
        _ = shift^[8 * rest.length] (shift^[8]
              (register ^^^ byte.toUInt32 ^^^ (2 ^ 8 * Bytes.ofLittle rest).toUInt32)) := by
            rw [iterate_shift_xor 8 (register ^^^ byte.toUInt32),
              iterate_shift_two_pow_mul 8 _ restLt]
        _ = shift^[8 * (byte :: rest).length]
              (register ^^^ (Bytes.ofLittle (byte :: rest)).toUInt32) := by
            rw [Bytes.ofLittle, toUInt32_add_eq_xor byte _ restLt, UInt32.xor_assoc,
              List.length_cons, Nat.mul_succ, Function.iterate_add_apply]

theorem eq_of_ofLittle {left right : Bytes} (sized : left.length = right.length)
    (short : left.length ≤ 4)
    (same : (Bytes.ofLittle left).toUInt32 = (Bytes.ofLittle right).toUInt32) : left = right := by
  have fits : ∀ bytes : Bytes, bytes.length ≤ 4 → Bytes.ofLittle bytes < UInt32.size := by
    intro bytes bytesShort
    calc Bytes.ofLittle bytes < 256 ^ bytes.length := Bytes.ofLittle_lt bytes
      _ ≤ 256 ^ 4 := Nat.pow_le_pow_right (by decide) bytesShort
  have numbers : Bytes.ofLittle left = Bytes.ofLittle right := by
    have words := congrArg UInt32.toNat same
    rw [toNat_toUInt32 (fits left short), toNat_toUInt32 (fits right (sized ▸ short))] at words
    exact words
  rw [← Bytes.little_ofLittle left, ← Bytes.little_ofLittle right, sized, numbers]

theorem foldl_absorb_injective (bytes : Bytes) :
    Function.Injective fun register => bytes.foldl absorb register := by
  induction bytes with
  | nil => exact Function.injective_id
  | cons byte rest inductionHypothesis =>
      intro left right same
      have absorbed : absorb left byte = absorb right byte := inductionHypothesis same
      rw [absorb_eq, absorb_eq] at absorbed
      exact (UInt32.xor_left_inj _).mp (shift_injective.iterate 8 absorbed)

/-- Byte strings that differ in one window of up to four bytes have different
checksums. -/
theorem checksum_window_injective {before window changed behind : Bytes}
    (sized : window.length = changed.length) (short : window.length ≤ 4)
    (same : checksum (before ++ window ++ behind) = checksum (before ++ changed ++ behind)) :
    window = changed := by
  have registers := (UInt32.xor_left_inj _).mp same
  rw [List.foldl_append, List.foldl_append, List.foldl_append, List.foldl_append] at registers
  have behindWindow := foldl_absorb_injective behind registers
  rw [foldl_absorb_eq _ window short, foldl_absorb_eq _ changed (sized ▸ short), sized]
    at behindWindow
  apply eq_of_ofLittle sized short
  exact (UInt32.xor_right_inj _).mp (shift_injective.iterate _ behindWindow)

end Crc32

/-! ## Damage -/

namespace Bytes

/-- All places in which the byte strings differ lie from `start` to `finish`. -/
def DifferWithin (start finish : Nat) (left right : Bytes) : Prop :=
  ∀ place : Nat, left[place]? ≠ right[place]? → start ≤ place ∧ place < finish

namespace DifferWithin

variable {start finish : Nat} {left right : Bytes}

theorem take_eq {count : Nat} (differ : DifferWithin start finish left right)
    (before : count ≤ start) : left.take count = right.take count := by
  apply List.ext_getElem?
  intro place
  by_cases inside : place < count
  · rw [List.getElem?_take_of_lt inside, List.getElem?_take_of_lt inside]
    by_contra apart
    have located := differ place apart
    omega
  · rw [List.getElem?_take_eq_none (by omega), List.getElem?_take_eq_none (by omega)]

theorem drop_eq {count : Nat} (differ : DifferWithin start finish left right)
    (behind : finish ≤ count) : left.drop count = right.drop count := by
  apply List.ext_getElem?
  intro place
  rw [List.getElem?_drop, List.getElem?_drop]
  by_contra apart
  have located := differ _ apart
  omega

theorem drop {count : Nat} (differ : DifferWithin (start + count) (finish + count) left right) :
    DifferWithin start finish (left.drop count) (right.drop count) := by
  intro place apart
  rw [List.getElem?_drop, List.getElem?_drop] at apart
  have located := differ _ apart
  omega

end DifferWithin

/-- Byte strings of one length that differ in a window of four bytes only, and
have the same checksum, are equal. -/
theorem eq_of_checksum_window {start : Nat} {left right : Bytes}
    (sized : left.length = right.length)
    (differ : DifferWithin start (start + 4) left right)
    (same : Crc32.checksum left = Crc32.checksum right) : left = right := by
  have parts : ∀ bytes : Bytes, bytes =
      bytes.take start ++ (bytes.drop start).take 4 ++ bytes.drop (start + 4) := by
    intro bytes
    rw [List.append_assoc, ← List.drop_drop, List.take_append_drop, List.take_append_drop]
  rw [parts left, parts right, differ.take_eq (Nat.le_refl start),
    differ.drop_eq (Nat.le_refl (start + 4))] at same
  have window := Crc32.checksum_window_injective (by simp [sized]) (List.length_take_le 4 _) same
  rw [parts left, parts right, differ.take_eq (Nat.le_refl start),
    differ.drop_eq (Nat.le_refl (start + 4)), window]

end Bytes

namespace Flash.Image

open Bytes (DifferWithin)

/-- The first part of a frame that does not fit: the magic, the version, or the
checksum of the payload. -/
def defectOf (frame : Bytes) : Error :=
  if frame.take 4 ≠ magic then .invalidMagic (frame.take 4)
  else if (frame.drop 4).take 4 ≠ Bytes.big 4 version.toNat then
    .unsupportedVersion (Bytes.ofBig ((frame.drop 4).take 4)).toUInt32
  else
    .checksumMismatch (Bytes.ofBig ((frame.drop 8).take 4)).toUInt32
      (Crc32.checksum (frame.drop frameHeaderSize))

/-- A byte string that is no frame of its payload is refused for the first part
that does not fit. -/
theorem ofFrame_eq_defect {frame : Bytes} (long : frameHeaderSize ≤ frame.length)
    (unframed : frame ≠ frameOf (frame.drop frameHeaderSize)) :
    ofFrame frame = .error (defectOf frame) := by
  have versionFour : ((frame.drop 4).take 4).length = 4 := by
    simp only [List.length_take, List.length_drop]
    unfold frameHeaderSize at long
    omega
  have checksumFour : ((frame.drop 8).take 4).length = 4 := by
    simp only [List.length_take, List.length_drop]
    unfold frameHeaderSize at long
    omega
  unfold ofFrame defectOf
  rw [if_neg (Nat.not_lt.mpr long)]
  by_cases named : frame.take 4 = magic
  · rw [if_neg (not_not_intro named), if_neg (not_not_intro named)]
    by_cases versioned : (frame.drop 4).take 4 = Bytes.big 4 version.toNat
    · have versionRead := (Bytes.ofBig_eq_word versionFour).mpr versioned
      have unsummed : Crc32.checksum (frame.drop frameHeaderSize) ≠
          (Bytes.ofBig ((frame.drop 8).take 4)).toUInt32 := by
        intro summed
        apply unframed
        have written := (Bytes.ofBig_eq_word checksumFour).mp summed.symm
        exact eq_frameOf.mpr ⟨long, named, versioned, written, rfl⟩
      simp only [versionRead, if_neg (not_not_intro versioned), if_pos unsummed, ne_eq,
        not_true_eq_false, if_false]
      rfl
    · have versionRead : (Bytes.ofBig ((frame.drop 4).take 4)).toUInt32 ≠ version := by
        intro read
        exact versioned ((Bytes.ofBig_eq_word versionFour).mp read)
      simp only [if_pos versionRead, if_pos versioned]
      rfl
  · rw [if_pos named, if_pos named]
    rfl

theorem toFrame_eq_frameOf (image : Image) : image.toFrame = frameOf (Payload.encode image) := rfl

/-- A frame that is damaged in its header only, or in one window of four bytes
of its payload only, is refused. The refusal names the magic if that is damaged,
else the version if that is damaged, else the checksum. -/
theorem localized_damage_is_detected (image : Image) (damaged : Bytes)
    (sized : damaged.length = image.toFrame.length) (differs : damaged ≠ image.toFrame)
    (localized : DifferWithin 0 frameHeaderSize image.toFrame damaged ∨
      ∃ start, frameHeaderSize ≤ start ∧
        DifferWithin start (start + 4) image.toFrame damaged) :
    ofFrame damaged = .error (
      if damaged.take 4 ≠ image.toFrame.take 4 then .invalidMagic (damaged.take 4)
      else if (damaged.drop 4).take 4 ≠ (image.toFrame.drop 4).take 4 then
        .unsupportedVersion (Bytes.ofBig ((damaged.drop 4).take 4)).toUInt32
      else
        .checksumMismatch (Bytes.ofBig ((damaged.drop 8).take 4)).toUInt32
          (Crc32.checksum (damaged.drop frameHeaderSize))) := by
  obtain ⟨long, named, versioned, summed, payload⟩ :=
    eq_frameOf.mp image.toFrame_eq_frameOf
  rw [named, versioned]
  apply ofFrame_eq_defect (sized ▸ long)
  intro framed
  apply differs
  obtain ⟨-, damagedNamed, damagedVersioned, damagedSummed, -⟩ := eq_frameOf.mp framed
  -- Where the damage is, the other parts of the frame settle what it must have been.
  rcases localized with header | ⟨start, startLe, window⟩
  · rw [framed, ← header.drop_eq (Nat.le_refl _), payload]
    rfl
  · have checksums : Crc32.checksum (Payload.encode image) =
        Crc32.checksum (damaged.drop frameHeaderSize) := by
      have fields : (image.toFrame.drop 8).take 4 = (damaged.drop 8).take 4 := by
        have headers := window.take_eq startLe
        unfold frameHeaderSize at headers
        rw [List.take_drop, List.take_drop, headers]
      rw [summed, damagedSummed] at fields
      have words := congrArg Bytes.ofBig fields
      rw [Bytes.ofBig_big (by exact UInt32.toNat_lt _),
        Bytes.ofBig_big (by exact UInt32.toNat_lt _)] at words
      exact UInt32.toNat_inj.mp words
    have payloadWindow : DifferWithin (start - frameHeaderSize) (start - frameHeaderSize + 4)
        (image.toFrame.drop frameHeaderSize) (damaged.drop frameHeaderSize) := by
      apply DifferWithin.drop
      rw [show start - frameHeaderSize + frameHeaderSize = start by omega,
        show start - frameHeaderSize + 4 + frameHeaderSize = start + 4 by omega]
      exact window
    rw [payload] at payloadWindow
    have payloads : Payload.encode image = damaged.drop frameHeaderSize := by
      apply Bytes.eq_of_checksum_window _ payloadWindow checksums
      rw [← payload, List.length_drop, List.length_drop, sized]
    rw [framed, ← payloads]
    rfl

/-- The frame of `openImage` with four bytes overwritten: the end of the length of
its memory, and the memory itself. -/
def scratchedFrame : Bytes := Bytes.splice openImage.toFrame 22 [1, 2, 3, 4]

theorem scratched_payload_is_detected :
    scratchedFrame.length = openImage.toFrame.length ∧ scratchedFrame ≠ openImage.toFrame ∧
      DifferWithin 22 (22 + 4) openImage.toFrame scratchedFrame ∧
      ∃ expected actual, ofFrame scratchedFrame = .error (.checksumMismatch expected actual) := by
  have sized : scratchedFrame.length = openImage.toFrame.length := by decide
  have differs : scratchedFrame ≠ openImage.toFrame := by
    intro same
    have byte := congrArg (fun frame : Bytes => frame[22]?) same
    revert byte
    decide
  have window : DifferWithin 22 (22 + 4) openImage.toFrame scratchedFrame := by
    intro place apart
    unfold scratchedFrame at apart
    rw [Bytes.getElem?_splice (by decide)] at apart
    split at apart
    · assumption
    · exact absurd rfl apart
  have refused := localized_damage_is_detected openImage scratchedFrame sized differs
    (.inr ⟨22, by decide, window⟩)
  rw [if_neg (by decide), if_neg (by decide)] at refused
  exact ⟨sized, differs, window, _, _, refused⟩

end Flash.Image

end CodeCapsules
