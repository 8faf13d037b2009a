import CodeCapsules.Machine.Instruction
import CodeCapsules.Proofs.Operation
import CodeCapsules.Proofs.Splice

/-!
Contract: every instruction with operands in range is read back from its word,
and every word from the bytes of assembled code.

Owns:
- the fields of a word, which read an `or` of words part by part;
- the classes of words, by which instructions are told apart;
- `Line`, an instruction as it is written in a program;
- the bytes of assembled words.

Main statement: the word of a line is read as the instruction of the line.
-/

namespace CodeCapsules.Machine

/-! ## Fields

Each part of a word carries one operand. A field sees every part but one as
zero, which is checked operand by operand. -/

section Fields

open Instruction

theorem or_and (left right mask : UInt16) :
    (left ||| right) &&& mask = (left &&& mask) ||| (right &&& mask) := by
  apply UInt16.toBitVec_inj.mp
  simp only [UInt16.toBitVec_and, UInt16.toBitVec_or, BitVec.and_or_distrib_right]

theorem targetOf_or (left right : UInt16) :
    (targetOf (left ||| right)).val = (targetOf left).val ||| (targetOf right).val := by
  unfold targetOf
  rw [UInt16.shiftRight_or, UInt16.toNat_or]
  exact Nat.or_mod_two_pow (n := 5)

theorem upperTargetOf_or (left right : UInt16) :
    (upperTargetOf (left ||| right)).val =
      (upperTargetOf left).val ||| (upperTargetOf right).val := by
  show ((left ||| right) >>> (4 : UInt16)).toNat % 16 = _
  rw [UInt16.shiftRight_or, UInt16.toNat_or]
  exact Nat.or_mod_two_pow (n := 4)

theorem or_or_or_comm (first second third fourth : UInt16) :
    first ||| second ||| (third ||| fourth) = first ||| third ||| (second ||| fourth) := by
  rw [UInt16.or_assoc, UInt16.or_assoc, ← UInt16.or_assoc second, UInt16.or_comm second,
    UInt16.or_assoc third]

theorem sourceOf_or (left right : UInt16) :
    (sourceOf (left ||| right)).val = (sourceOf left).val ||| (sourceOf right).val := by
  unfold sourceOf
  rw [UInt16.shiftRight_or, or_and, or_and, or_or_or_comm, UInt16.toNat_or]
  exact Nat.or_mod_two_pow (n := 5)

theorem distanceOf_or (left right : UInt16) :
    (distanceOf (left ||| right)).val = (distanceOf left).val ||| (distanceOf right).val := by
  unfold distanceOf
  simp only
  rw [UInt16.shiftRight_or, UInt16.shiftRight_or, or_and, or_and, or_and,
    or_or_or_comm (left >>> (8 : UInt16) &&& 0x20), or_or_or_comm (_ ||| _), UInt16.toNat_or]
  exact Nat.or_mod_two_pow (n := 6)

/-- The constant of a load, whose halves stand apart. -/
def constantOf (word : UInt16) : UInt8 :=
  (((word >>> (4 : UInt16)) &&& 0xF0) ||| (word &&& 0x0F)).toUInt8

theorem constantOf_or (left right : UInt16) :
    constantOf (left ||| right) = constantOf left ||| constantOf right := by
  unfold constantOf
  rw [UInt16.shiftRight_or, or_and, or_and, or_or_or_comm, UInt16.toUInt8_or]

end Fields

/-! ## Classes -/

section Classes

variable {word mask kind : UInt16}

theorem ne_of_class (inClass : word &&& mask = kind) {other : UInt16}
    (apart : other &&& mask ≠ kind) : word ≠ other := by
  intro same
  rw [same] at inClass
  exact apart inClass

/-- Words of one class are not of another that asks for other bits. -/
theorem class_ne (inClass : word &&& mask = kind) {otherMask otherKind : UInt16}
    (apart : kind &&& otherMask ≠ otherKind &&& mask) : word &&& otherMask ≠ otherKind := by
  intro inOther
  apply apart
  rw [← inClass, ← inOther, UInt16.and_assoc, UInt16.and_assoc, UInt16.and_comm mask]

open Instruction

theorem decode?_of_load (inClass : word &&& 0xF000 = 0xE000) :
    decode? word = some (.loadImmediate (upperTargetOf word) (constantOf word)) := by
  unfold decode?
  rw [if_neg (ne_of_class inClass (by decide)), if_neg (ne_of_class inClass (by decide)),
    if_pos inClass]
  rfl

theorem decode?_of_move (inClass : word &&& 0xFC00 = 0x2C00) :
    decode? word = some (.move (targetOf word) (sourceOf word)) := by
  unfold decode?
  rw [if_neg (ne_of_class inClass (by decide)), if_neg (ne_of_class inClass (by decide)),
    if_neg (class_ne inClass (by decide)), if_pos inClass]

theorem decode?_of_add (inClass : word &&& 0xFC00 = 0x0C00) :
    decode? word = some (.add (targetOf word) (sourceOf word)) := by
  unfold decode?
  rw [if_neg (ne_of_class inClass (by decide)), if_neg (ne_of_class inClass (by decide)),
    if_neg (class_ne inClass (by decide)), if_neg (class_ne inClass (by decide)),
    if_pos inClass]

theorem decode?_of_storeAdvance (inClass : word &&& 0xFE0F = 0x9209) :
    decode? word = some (.storeAdvance (targetOf word)) := by
  unfold decode?
  rw [if_neg (ne_of_class inClass (by decide)), if_neg (ne_of_class inClass (by decide)),
    if_neg (class_ne inClass (by decide)), if_neg (class_ne inClass (by decide)),
    if_neg (class_ne inClass (by decide)), if_pos inClass]

theorem decode?_of_storeAt (inClass : word &&& 0xD208 = 0x8208) :
    decode? word = some (.storeAt (distanceOf word) (targetOf word)) := by
  unfold decode?
  rw [if_neg (ne_of_class inClass (by decide)), if_neg (ne_of_class inClass (by decide)),
    if_neg (class_ne inClass (by decide)), if_neg (class_ne inClass (by decide)),
    if_neg (class_ne inClass (by decide)), if_neg (class_ne inClass (by decide)),
    if_pos inClass]

theorem decode?_of_call (inClass : word &&& 0xF000 = 0xD000) :
    decode? word = some (.call (callDistanceOf word)) := by
  unfold decode?
  rw [if_neg (ne_of_class inClass (by decide)), if_neg (ne_of_class inClass (by decide)),
    if_neg (class_ne inClass (by decide)), if_neg (class_ne inClass (by decide)),
    if_neg (class_ne inClass (by decide)), if_neg (class_ne inClass (by decide)),
    if_neg (class_ne inClass (by decide)), if_pos inClass]

end Classes

/-! ## Words of instructions -/

section Words

open Instruction

variable (target source : Register)

theorem targetOf_registers :
    targetOf (Opcode.registers target.val.toUInt8 source.val.toUInt8) = target := by
  have sourceHigh : ∀ source : Register,
      targetOf ((source.val.toUInt8.toUInt16 &&& 0x10) <<< (5 : UInt16)) = 0 := by decide
  have sourceLow : ∀ source : Register,
      targetOf (source.val.toUInt8.toUInt16 &&& 0x0F) = 0 := by decide
  have own : ∀ target : Register,
      targetOf (target.val.toUInt8.toUInt16 <<< (4 : UInt16)) = target := by decide
  apply Fin.ext
  unfold Opcode.registers
  rw [targetOf_or, targetOf_or, sourceHigh, sourceLow, own]
  simp

theorem sourceOf_registers :
    sourceOf (Opcode.registers target.val.toUInt8 source.val.toUInt8) = source := by
  have shifted : ∀ target : Register,
      sourceOf (target.val.toUInt8.toUInt16 <<< (4 : UInt16)) = 0 := by decide
  have own : ∀ source : Register,
      (sourceOf ((source.val.toUInt8.toUInt16 &&& 0x10) <<< (5 : UInt16))).val |||
        (sourceOf (source.val.toUInt8.toUInt16 &&& 0x0F)).val = source.val := by decide
  apply Fin.ext
  unfold Opcode.registers
  rw [sourceOf_or, sourceOf_or, shifted, Fin.val_zero, Nat.or_zero, own]

theorem registers_and : Opcode.registers target.val.toUInt8 source.val.toUInt8 &&& 0xFC00 = 0 := by
  have targetPart : ∀ target : Register,
      (target.val.toUInt8.toUInt16 <<< (4 : UInt16)) &&& 0xFC00 = 0 := by decide
  have sourceHigh : ∀ source : Register,
      ((source.val.toUInt8.toUInt16 &&& 0x10) <<< (5 : UInt16)) &&& 0xFC00 = 0 := by decide
  have sourceLow : ∀ source : Register,
      (source.val.toUInt8.toUInt16 &&& 0x0F) &&& 0xFC00 = 0 := by decide
  unfold Opcode.registers
  rw [or_and, or_and, targetPart, sourceHigh, sourceLow]
  rfl

/-- Two registers are read back from a word that is otherwise its class. -/
theorem fields_registers {kind : UInt16} (inClass : kind &&& 0xFC00 = kind)
    (targetClear : targetOf kind = 0) (sourceClear : sourceOf kind = 0) :
    (kind ||| Opcode.registers target.val.toUInt8 source.val.toUInt8) &&& 0xFC00 = kind ∧
      targetOf (kind ||| Opcode.registers target.val.toUInt8 source.val.toUInt8) = target ∧
      sourceOf (kind ||| Opcode.registers target.val.toUInt8 source.val.toUInt8) = source := by
  refine ⟨?_, Fin.ext ?_, Fin.ext ?_⟩
  · rw [or_and, inClass, registers_and, UInt16.or_zero]
  · rw [targetOf_or, targetClear, targetOf_registers]
    exact Nat.zero_or _
  · rw [sourceOf_or, sourceClear, sourceOf_registers]
    exact Nat.zero_or _

theorem decode?_move :
    decode? (Opcode.move target.val.toUInt8 source.val.toUInt8) = some (.move target source) := by
  obtain ⟨inClass, targetEq, sourceEq⟩ :=
    fields_registers target source (by decide : (0x2C00 : UInt16) &&& 0xFC00 = 0x2C00)
      (by decide) (by decide)
  rw [Opcode.move, decode?_of_move inClass, targetEq, sourceEq]

theorem decode?_add :
    decode? (Opcode.add target.val.toUInt8 source.val.toUInt8) = some (.add target source) := by
  obtain ⟨inClass, targetEq, sourceEq⟩ :=
    fields_registers target source (by decide : (0x0C00 : UInt16) &&& 0xFC00 = 0x0C00)
      (by decide) (by decide)
  rw [Opcode.add, decode?_of_add inClass, targetEq, sourceEq]

theorem decode?_storeAdvance :
    decode? (Opcode.storeAdvance source.val.toUInt8) = some (.storeAdvance source) := by
  have inClass : ∀ source : Register,
      Opcode.storeAdvance source.val.toUInt8 &&& 0xFE0F = 0x9209 := by decide
  have sourceEq : ∀ source : Register,
      targetOf (Opcode.storeAdvance source.val.toUInt8) = source := by decide
  rw [decode?_of_storeAdvance (inClass source), sourceEq]

theorem decode?_storeAt (distance : Fin 64) :
    decode? (Opcode.storeAt distance.val.toUInt8 source.val.toUInt8) =
      some (.storeAt distance source) := by
  have distanceClass : ∀ distance : Fin 64,
      (0x8208 ||| ((distance.val.toUInt8.toUInt16 &&& 0x20) <<< (8 : UInt16)) |||
        ((distance.val.toUInt8.toUInt16 &&& 0x18) <<< (7 : UInt16)) |||
        (distance.val.toUInt8.toUInt16 &&& 0x07)) &&& 0xD208 = 0x8208 := by decide
  have distanceOwn : ∀ distance : Fin 64,
      distanceOf (0x8208 ||| ((distance.val.toUInt8.toUInt16 &&& 0x20) <<< (8 : UInt16)) |||
        ((distance.val.toUInt8.toUInt16 &&& 0x18) <<< (7 : UInt16)) |||
        (distance.val.toUInt8.toUInt16 &&& 0x07)) = distance := by decide
  have distanceTarget : ∀ distance : Fin 64,
      targetOf (0x8208 ||| ((distance.val.toUInt8.toUInt16 &&& 0x20) <<< (8 : UInt16)) |||
        ((distance.val.toUInt8.toUInt16 &&& 0x18) <<< (7 : UInt16)) |||
        (distance.val.toUInt8.toUInt16 &&& 0x07)) = 0 := by decide
  have sourceClass : ∀ source : Register,
      (source.val.toUInt8.toUInt16 <<< (4 : UInt16)) &&& 0xD208 = 0 := by decide
  have sourceDistance : ∀ source : Register,
      distanceOf (source.val.toUInt8.toUInt16 <<< (4 : UInt16)) = 0 := by decide
  have sourceOwn : ∀ source : Register,
      targetOf (source.val.toUInt8.toUInt16 <<< (4 : UInt16)) = source := by decide
  have inClass : Opcode.storeAt distance.val.toUInt8 source.val.toUInt8 &&& 0xD208 = 0x8208 := by
    unfold Opcode.storeAt
    rw [or_and, distanceClass, sourceClass]
    rfl
  have distanceEq :
      distanceOf (Opcode.storeAt distance.val.toUInt8 source.val.toUInt8) = distance := by
    apply Fin.ext
    unfold Opcode.storeAt
    rw [distanceOf_or, distanceOwn, sourceDistance]
    exact Nat.or_zero _
  have sourceEq :
      targetOf (Opcode.storeAt distance.val.toUInt8 source.val.toUInt8) = source := by
    apply Fin.ext
    unfold Opcode.storeAt
    rw [targetOf_or, distanceTarget, sourceOwn]
    exact Nat.zero_or _
  rw [decode?_of_storeAt inClass, distanceEq, sourceEq]

/-- What the halves of a constant are to each field of a load. -/
theorem constant_parts (constant : Fin 256) :
    (0xE000 ||| ((constant.val.toUInt8.toUInt16 &&& 0xF0) <<< (4 : UInt16))) &&& 0xF000 =
        0xE000 ∧
      (constant.val.toUInt8.toUInt16 &&& 0x0F) &&& 0xF000 = 0 ∧
      upperTargetOf (0xE000 ||| ((constant.val.toUInt8.toUInt16 &&& 0xF0) <<< (4 : UInt16))) =
        0 ∧
      upperTargetOf (constant.val.toUInt8.toUInt16 &&& 0x0F) = 0 ∧
      constantOf (0xE000 ||| ((constant.val.toUInt8.toUInt16 &&& 0xF0) <<< (4 : UInt16))) |||
        constantOf (constant.val.toUInt8.toUInt16 &&& 0x0F) = constant.val.toUInt8 := by
  revert constant
  decide +kernel

theorem decode?_loadImmediate {ε : Type} (upperTarget : Fin 16) (constant : UInt8) :
    ∃ word, (Opcode.loadImmediate (upper upperTarget).val.toUInt8 constant : Outcome ε UInt16) =
        .ok word ∧
      decode? word = some (.loadImmediate upperTarget constant) := by
  have field : ∀ upperTarget : Fin 16, (16 : UInt8) ≤ (upper upperTarget).val.toUInt8 ∧
      (upper upperTarget).val.toUInt8 - 16 = upperTarget.val.toUInt8 := by decide
  have targetPart : ∀ upperTarget : Fin 16,
      (upperTarget.val.toUInt8.toUInt16 <<< (4 : UInt16)) &&& 0xF000 = 0 ∧
        upperTargetOf (upperTarget.val.toUInt8.toUInt16 <<< (4 : UInt16)) = upperTarget ∧
        constantOf (upperTarget.val.toUInt8.toUInt16 <<< (4 : UInt16)) = 0 := by decide
  obtain ⟨covered, fieldEq⟩ := field upperTarget
  obtain ⟨targetClass, targetOwn, targetConstant⟩ := targetPart upperTarget
  obtain ⟨index, constantEq⟩ : ∃ index : Fin 256, index.val.toUInt8 = constant :=
    ⟨⟨constant.toNat, constant.toNat_lt⟩, UInt8.ofNat_toNat⟩
  obtain ⟨highClass, lowClass, highTarget, lowTarget, constantOwn⟩ := constant_parts index
  rw [constantEq] at highClass lowClass highTarget lowTarget constantOwn
  refine ⟨(0xE000 ||| ((constant.toUInt16 &&& 0xF0) <<< (4 : UInt16))) |||
    (upperTarget.val.toUInt8.toUInt16 <<< (4 : UInt16)) ||| (constant.toUInt16 &&& 0x0F), ?_, ?_⟩
  · unfold Opcode.loadImmediate difference8
    rw [if_pos covered, fieldEq]
    rfl
  · rw [decode?_of_load]
    · congr 2
      · apply Fin.ext
        rw [upperTargetOf_or, upperTargetOf_or, highTarget, lowTarget, targetOwn]
        simp
      · rw [constantOf_or, constantOf_or, targetConstant, UInt8.or_zero, constantOwn]
    · rw [or_and, or_and, highClass, lowClass, targetClass]
      rfl

/-- A call shifted to the left has lost its class, and keeps its distance. -/
theorem call_shiftLeft (distance : Int16) :
    Opcode.call distance <<< (4 : UInt16) = distance.toUInt16 * 16 := by
  have lost : (0xD000 : UInt16) <<< (4 : UInt16) = 0 := by decide
  rw [Opcode.call, UInt16.shiftLeft_or, lost, UInt16.zero_or]
  apply UInt16.toNat_inj.mp
  rw [UInt16.toNat_shiftLeft, UInt16.toNat_and, UInt16.toNat_mul]
  show (distance.toUInt16.toNat &&& 2 ^ 12 - 1) <<< 4 % 2 ^ 16 = distance.toUInt16.toNat * 16 % 2 ^ 16
  rw [Nat.and_two_pow_sub_one_eq_mod, Nat.shiftLeft_eq]
  omega

/-- Twelve bits with a sign are read back from a call. -/
theorem decode?_call {distance : Int16} (lower : -2048 ≤ distance.toInt)
    (upper : distance.toInt ≤ 2047) :
    decode? (Opcode.call distance) = some (.call distance) := by
  have inClass : Opcode.call distance &&& 0xF000 = 0xD000 := by
    rw [Opcode.call, or_and, UInt16.and_assoc]
    show _ ||| (_ &&& 0) = _
    rw [UInt16.and_zero]
    rfl
  -- Twelve bits with a sign, sixteen times, do not overflow sixteen bits.
  have product : (distance * 16).toInt = distance.toInt * 16 := by
    rw [Int16.toInt_mul]
    show (distance.toInt * 16).bmod 65536 = _
    exact Int.bmod_eq_of_le (by omega) (by omega)
  have distanceEq : callDistanceOf (Opcode.call distance) = distance := by
    unfold callDistanceOf
    rw [call_shiftLeft, UInt16.toInt16_mul, Int16.toInt16_toUInt16]
    apply Int16.toInt_inj.mp
    show ((distance * 16).toBitVec.sshiftRight 4).toInt = _
    rw [BitVec.toInt_sshiftRight, Int16.toInt_toBitVec, product, Int.shiftRight_eq_div_pow]
    omega
  rw [decode?_of_call inClass, distanceEq]

end Words

/-! ## Lines -/

/-- An instruction as it is written in a program, with operands in range. -/
inductive Line where
  | nop
  | ret
  /-- Loads a constant into one of the registers from 16 on. -/
  | loadImmediate (target : Fin 16) (constant : UInt8)
  | move (target source : Register)
  | add (target source : Register)
  /-- Stores a register where `Y` points. -/
  | store (source : Register)
  | storeAdvance (source : Register)
  | storeAt (distance : Fin 64) (source : Register)
  /-- Calls the line at a distance of twelve bits with a sign from the next. -/
  | call (distance : Int16) (lower : -2048 ≤ distance.toInt) (upper : distance.toInt ≤ 2047)
deriving DecidableEq, Repr

namespace Line

variable {ε : Type}

def word : Line → Outcome ε UInt16
  | .nop => .ok Opcode.nop
  | .ret => .ok Opcode.ret
  | .loadImmediate target constant => Opcode.loadImmediate (upper target).val.toUInt8 constant
  | .move target source => .ok (Opcode.move target.val.toUInt8 source.val.toUInt8)
  | .add target source => .ok (Opcode.add target.val.toUInt8 source.val.toUInt8)
  | .store source => .ok (Opcode.store source.val.toUInt8)
  | .storeAdvance source => .ok (Opcode.storeAdvance source.val.toUInt8)
  | .storeAt distance source => .ok (Opcode.storeAt distance.val.toUInt8 source.val.toUInt8)
  | .call distance _ _ => .ok (Opcode.call distance)

def instruction : Line → Instruction
  | .nop => .nop
  | .ret => .ret
  | .loadImmediate target constant => .loadImmediate target constant
  | .move target source => .move target source
  | .add target source => .add target source
  | .store source => .storeAt ⟨0, Nat.zero_lt_succ 63⟩ source
  | .storeAdvance source => .storeAdvance source
  | .storeAt distance source => .storeAt distance source
  | .call distance _ _ => .call distance

theorem exists_word (line : Line) :
    ∃ word, (line.word : Outcome ε UInt16) = .ok word ∧
      Instruction.decode? word = some line.instruction := by
  cases line with
  | nop => exact ⟨_, rfl, rfl⟩
  | ret => exact ⟨_, rfl, rfl⟩
  | loadImmediate target constant => exact decode?_loadImmediate target constant
  | move target source => exact ⟨_, rfl, decode?_move target source⟩
  | add target source => exact ⟨_, rfl, decode?_add target source⟩
  | store source => exact ⟨_, rfl, decode?_storeAt source 0⟩
  | storeAdvance source => exact ⟨_, rfl, decode?_storeAdvance source⟩
  | storeAt distance source => exact ⟨_, rfl, decode?_storeAt source distance⟩
  | call distance lower upper => exact ⟨_, rfl, decode?_call lower upper⟩

/-- Every program has words, and each is read as the instruction of its line. -/
theorem exists_words (lines : List Line) :
    ∃ words, (lines.mapM word : Outcome ε (List UInt16)) = .ok words ∧
      words.map Instruction.decode? = lines.map fun line => some line.instruction := by
  induction lines with
  | nil => exact ⟨[], rfl, rfl⟩
  | cons line rest inductionHypothesis =>
      obtain ⟨first, firstEq, decoded⟩ := line.exists_word (ε := ε)
      obtain ⟨words, wordsEq, restDecoded⟩ := inductionHypothesis
      refine ⟨first :: words, ?_, by rw [List.map_cons, List.map_cons, decoded, restDecoded]⟩
      rw [List.mapM_cons, firstEq, wordsEq]
      rfl

end Line

/-! ## Assembled bytes -/

theorem assemble_cons (word : UInt16) (rest : List UInt16) :
    assemble (word :: rest) =
      word.toNat.toUInt8 :: (word.toNat / 256).toUInt8 :: assemble rest := by
  unfold assemble
  rw [List.flatMap_cons, Bytes.little_two]
  rfl

/-- The low byte of a word comes first. -/
theorem getElem?_assemble {words : List UInt16} {index : Nat} {word : UInt16}
    (wordAt : words[index]? = some word) :
    (assemble words)[2 * index]? = some word.toNat.toUInt8 ∧
      (assemble words)[2 * index + 1]? = some (word.toNat / 256).toUInt8 := by
  induction words generalizing index with
  | nil => simp at wordAt
  | cons first rest inductionHypothesis =>
      rw [assemble_cons]
      cases index with
      | zero =>
          rw [List.getElem?_cons_zero] at wordAt
          rw [Option.some.inj wordAt]
          exact ⟨rfl, rfl⟩
      | succ index =>
          rw [List.getElem?_cons_succ] at wordAt
          exact inductionHypothesis wordAt

end CodeCapsules.Machine
