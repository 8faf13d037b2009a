import CodeCapsules.Proofs.Budget

/-!
Contract: what a call leaves in the return buffer, if the capsule leaves `Y`
alone.

Owns:
- `writes`, the registers that an instruction can change, and the frame lemma
  for all others;
- the buffer along a course on which `Y` stays where it is;
- the delivery of the result into a buffer that is long enough.

Main statement: the first bytes of the buffer are the result registers as they
stood when the capsule returned. Every other byte is what the capsule stored
there last, or what the caller had put there.
-/

namespace CodeCapsules.Machine

open Flash (Archive)

/-- Whether the instruction writes the register with this number. -/
def Instruction.writes (register : Nat) : Instruction → Bool
  | .loadImmediate target _ => (upper target).val == register
  | .move target _ => target.val == register
  | .add target _ => target.val == register
  | .storeAdvance _ => register == 28 || register == 29
  | _ => false

/-- The instruction leaves both registers of `Y` alone. -/
def Instruction.keepsPointer (instruction : Instruction) : Bool :=
  !instruction.writes 28 && !instruction.writes 29

/-- What an instruction stores at a distance from `Y`, if it does. -/
def Executed.storedAt (distance : Nat) (executed : Executed) : Option UInt8 :=
  match executed.instruction with
  | .storeAt given source =>
      if given.val = distance then some (executed.state.registers.get source) else none
  | _ => none

/-! ## One instruction -/

section Instructions

variable {state after : State} {instruction : Instruction}

theorem getElem?_setRegister (target : Register) (value : UInt8) {register : Nat}
    (apart : target.val ≠ register) :
    (state.setRegister target value).registers[register]? = state.registers[register]? := by
  simp [State.setRegister, apart]

theorem getElem?_setPair (registers : Registers) (low : Fin 31) (value : UInt16) {register : Nat}
    (apartLow : low.val ≠ register) (apartHigh : low.val + 1 ≠ register) :
    (State.setPair registers low value)[register]? = registers[register]? := by
  simp [State.setPair, apartLow, apartHigh]

/-- An instruction changes no register but those it writes. -/
theorem execute_register {register : Nat} (unwritten : instruction.writes register = false)
    (executed : state.execute instruction = .ok (some after)) :
    after.registers[register]? = state.registers[register]? := by
  cases instruction with
  | nop =>
      obtain rfl := Option.some.inj (Except.ok.inj executed)
      rfl
  | ret =>
      simp only [State.execute] at executed
      split at executed
      · exact absurd (Except.ok.inj executed) (by simp)
      · obtain rfl := Option.some.inj (Except.ok.inj executed)
        rfl
  | loadImmediate target constant =>
      obtain rfl := Option.some.inj (Except.ok.inj executed)
      exact getElem?_setRegister _ _ (ne_of_beq_false unwritten)
  | move target source =>
      obtain rfl := Option.some.inj (Except.ok.inj executed)
      exact getElem?_setRegister _ _ (ne_of_beq_false unwritten)
  | add target source =>
      obtain rfl := Option.some.inj (Except.ok.inj executed)
      exact getElem?_setRegister _ _ (ne_of_beq_false unwritten)
  | storeAdvance source =>
      obtain ⟨buffer, -, continued⟩ := Outcome.bind_eq_ok.mp executed
      obtain rfl := Option.some.inj (Except.ok.inj continued)
      obtain ⟨apartLow, apartHigh⟩ := Bool.or_eq_false_iff.mp unwritten
      exact getElem?_setPair _ _ _ (ne_of_beq_false apartLow).symm (ne_of_beq_false apartHigh).symm
  | storeAt distance source =>
      obtain ⟨buffer, -, continued⟩ := Outcome.bind_eq_ok.mp executed
      obtain rfl := Option.some.inj (Except.ok.inj continued)
      rfl
  | call distance =>
      obtain rfl := Option.some.inj (Except.ok.inj executed)
      rfl

theorem pointer_congr {left right : State}
    (low : left.registers[28]? = right.registers[28]?)
    (high : left.registers[29]? = right.registers[29]?) : left.pointer = right.pointer := by
  simp only [Vector.getElem?_eq_getElem (by decide : 28 < 32), Option.some.injEq] at low
  simp only [Vector.getElem?_eq_getElem (by decide : 29 < 32), Option.some.injEq] at high
  unfold State.pointer
  rw [low, high]

theorem execute_pointer (keeps : instruction.keepsPointer = true)
    (executed : state.execute instruction = .ok (some after)) : after.pointer = state.pointer := by
  obtain ⟨low, high⟩ := Bool.and_eq_true_iff.mp keeps
  exact pointer_congr (execute_register (by simpa using low) executed)
    (execute_register (by simpa using high) executed)

theorem toNat_bufferAddress_add {place : Nat} (reachable : 256 + place < 65536) :
    (bufferAddress + place.toUInt16).toNat = 256 + place := by
  rw [UInt16.toNat_add, toNat_toUInt16 (by omega)]
  exact Nat.mod_eq_of_lt reachable

/-- A byte of the buffer is addressed by its place behind the first. -/
theorem storeByte_place {buffer : Bytes} {place : Nat} (value : UInt8)
    (reachable : 256 + place < 65536) :
    State.storeByte buffer (bufferAddress + place.toUInt16) value =
      if place < buffer.length then .ok (buffer.set place value)
      else .error (.storeOutOfBounds (bufferAddress + place.toUInt16)) := by
  have address := toNat_bufferAddress_add reachable
  have start : bufferAddress.toNat = 256 := rfl
  have placeEq : (bufferAddress + place.toUInt16).toNat - bufferAddress.toNat = place := by omega
  have behind : bufferAddress ≤ bufferAddress + place.toUInt16 := by
    rw [UInt16.le_iff_toNat_le]
    omega
  unfold State.storeByte
  rw [placeEq]
  simp only [behind, true_and]

/-- With `Y` on the buffer, an instruction changes the buffer only by a store at
a distance. -/
theorem execute_buffer (word : UInt16) (pointing : state.pointer = bufferAddress)
    (keeps : instruction.keepsPointer = true)
    (executed : state.execute instruction = .ok (some after)) :
    after.buffer.length = state.buffer.length ∧
      ∀ place, after.buffer[place]? =
        (Executed.storedAt place ⟨state, word, instruction⟩).or state.buffer[place]? := by
  cases instruction with
  | nop =>
      obtain rfl := Option.some.inj (Except.ok.inj executed)
      exact ⟨rfl, fun _ => rfl⟩
  | ret =>
      simp only [State.execute] at executed
      split at executed
      · exact absurd (Except.ok.inj executed) (by simp)
      · obtain rfl := Option.some.inj (Except.ok.inj executed)
        exact ⟨rfl, fun _ => rfl⟩
  | loadImmediate target constant =>
      obtain rfl := Option.some.inj (Except.ok.inj executed)
      exact ⟨rfl, fun _ => rfl⟩
  | move target source =>
      obtain rfl := Option.some.inj (Except.ok.inj executed)
      exact ⟨rfl, fun _ => rfl⟩
  | add target source =>
      obtain rfl := Option.some.inj (Except.ok.inj executed)
      exact ⟨rfl, fun _ => rfl⟩
  | storeAdvance source => contradiction
  | storeAt distance source =>
      obtain ⟨buffer, stored, continued⟩ := Outcome.bind_eq_ok.mp executed
      obtain rfl := Option.some.inj (Except.ok.inj continued)
      have small := distance.isLt
      rw [pointing, storeByte_place _ (by omega)] at stored
      split at stored
      · rename_i inside
        obtain rfl := Except.ok.inj stored
        refine ⟨List.length_set, fun place => ?_⟩
        show (state.buffer.set distance.val _)[place]? =
          (if distance.val = place then some (state.registers.get source) else none).or _
        rw [List.getElem?_set]
        by_cases here : distance.val = place
        · rw [if_pos here, if_pos here, if_pos (by omega)]
          rfl
        · rw [if_neg here, if_neg here, Option.none_or]
      · contradiction
  | call distance =>
      obtain rfl := Option.some.inj (Except.ok.inj executed)
      exact ⟨rfl, fun _ => rfl⟩

end Instructions

/-! ## Whole courses -/

/-- Along a course on which no instruction writes `Y`, each byte of the buffer is
the last that was stored at its distance, or the byte that was there. -/
theorem Course.buffer {program : Archive} {state last : State} {path : List Executed}
    (course : Course program state path last) (pointing : state.pointer = bufferAddress)
    (keeps : ∀ executed ∈ path, executed.instruction.keepsPointer = true) :
    last.pointer = bufferAddress ∧ last.buffer.length = state.buffer.length ∧
      ∀ place, last.buffer[place]? =
        (path.filterMap (Executed.storedAt place)).getLast?.or state.buffer[place]? := by
  induction course with
  | done state => exact ⟨pointing, rfl, fun _ => rfl⟩
  | @step state after last word instruction rest fetched decoded executed behind
      inductionHypothesis =>
      obtain ⟨keepsHere, keepsRest⟩ := List.forall_mem_cons.mp keeps
      obtain ⟨lengthEq, bytesEq⟩ := execute_buffer word pointing keepsHere executed
      obtain ⟨lastPointing, lastLength, lastBytes⟩ :=
        inductionHypothesis ((execute_pointer keepsHere executed).trans pointing) keepsRest
      refine ⟨lastPointing, lastLength.trans lengthEq, ?_⟩
      intro place
      rw [lastBytes, bytesEq, List.filterMap_cons]
      cases Executed.storedAt place ⟨state, word, instruction⟩ with
      | none => rfl
      | some value =>
          simp only [List.getLast?_cons, Option.some_or]
          cases (rest.filterMap (Executed.storedAt place)).getLast? with
          | none => rfl
          | some later => rfl

theorem pointer_enter (entry : InstructionAddress) (buffer : Bytes) :
    (State.enter entry buffer).pointer = bufferAddress := by
  have unset : (⟨State.setPair (Vector.replicate 32 0) 28 bufferAddress, entry, [], buffer⟩ :
      State).pointer = bufferAddress := by
    simp only [State.pointer]
    decide
  rw [← unset]
  exact pointer_congr (getElem?_setPair _ 30 _ (by decide) (by decide))
    (getElem?_setPair _ 30 _ (by decide) (by decide))

/-- A result that fits is delivered, one byte behind the other. -/
theorem deliver_place {buffer : Bytes} (bytes : Bytes) {place : Nat}
    (fits : place + bytes.length ≤ buffer.length)
    (reachable : 256 + place + bytes.length < 65536) :
    deliver buffer (bufferAddress + place.toUInt16) bytes =
      (Bytes.splice buffer place bytes, .ok ()) := by
  induction bytes generalizing buffer place with
  | nil => simp [deliver, Bytes.splice]
  | cons byte rest inductionHypothesis =>
      have next : bufferAddress + place.toUInt16 + 1 = bufferAddress + (place + 1).toUInt16 := by
        rw [UInt16.add_assoc]
        exact congrArg (bufferAddress + ·) (UInt16.ofNat_add place 1).symm
      rw [← Bytes.splice_set byte fits]
      rw [List.length_cons] at fits reachable
      rw [deliver, storeByte_place byte (by omega), if_pos (by omega)]
      simp only
      rw [next, inductionHypothesis (by rw [List.length_set]; omega) (by omega)]

/-! ## Whole calls -/

section Calls

theorem length_resultBytes (registers : Registers) (width : ReturnWidth) :
    (resultBytes registers width).length = width.size := by
  cases width with
  | byte => simp [resultBytes, ReturnWidth.size, ReturnWidth.firstRegister]
  | word => simp [resultBytes, ReturnWidth.size, ReturnWidth.firstRegister]
  | dword => simp [resultBytes, ReturnWidth.size, ReturnWidth.firstRegister]

theorem getElem?_resultBytes (registers : Registers) (width : ReturnWidth) {place : Nat}
    (inside : place < width.size) :
    (resultBytes registers width)[place]? = registers[width.firstRegister + place]? := by
  rw [resultBytes, List.getElem?_take_of_lt inside, List.getElem?_drop]
  exact Vector.getElem?_toList

/-- The machine comes to the return by the instructions that it follows. -/
theorem course_of_returned {program : Archive} {limit : Nat} {state : State}
    (returned : (run program limit state).outcome = .ok ()) :
    Course program state (follow program limit state).1 (run program limit state).state ∧
      (run program limit state).steps = (follow program limit state).1.length + 1 := by
  obtain ⟨course, ended⟩ := follow_course program limit state
  rcases ended with spent | ⟨affordable, outcome, reported, stops⟩
  · have exceeded := (course.run_of_spent (Nat.le_of_eq spent.symm)).1
    rw [returned] at exceeded
    contradiction
  · rw [course.run_of_stops stops affordable]
    exact ⟨course, rfl⟩

/-- A call of a capsule that returned delivers through `Y`. -/
theorem call_of_returned {program : Archive} {entry : InstructionAddress} {width : ReturnWidth}
    {simulator : Simulator} {buffer delivered : Bytes}
    (returned :
      (run program simulator.stepLimit.toNat (.enter entry buffer)).outcome = .ok ())
    (delivers : deliver (run program simulator.stepLimit.toNat (.enter entry buffer)).state.buffer
        (run program simulator.stepLimit.toNat (.enter entry buffer)).state.pointer
        (resultBytes (run program simulator.stepLimit.toNat (.enter entry buffer)).state.registers
          width) = (delivered, .ok ())) :
    (Simulator.call program entry width).result ⟨simulator, buffer⟩ =
      (.ok (), ⟨⟨(run program simulator.stepLimit.toNat (.enter entry buffer)).state.registers,
        simulator.stepLimit,
        (run program simulator.stepLimit.toNat (.enter entry buffer)).steps⟩, delivered⟩) := by
  unfold Operation.result Simulator.call
  simp only [returned, delivers]

end Calls

/-- A capsule that returns without writing `Y` has its result delivered, into any
buffer that is long enough. The buffer keeps its length. Its first bytes are the
result registers as they stood at the return, and each byte behind them is what
the capsule stored last at that distance, or else what it was before the call. -/
theorem result_is_delivered_before_stores (program : Archive) (entry : InstructionAddress)
    (width : ReturnWidth) (simulator : Simulator) (buffer : Bytes)
    (wide : width.size ≤ buffer.length)
    (returned :
      (run program simulator.stepLimit.toNat (.enter entry buffer)).outcome = .ok ())
    (keeps : ∀ executed ∈ (follow program simulator.stepLimit.toNat (.enter entry buffer)).1,
      executed.instruction.keepsPointer = true) :
    let path := (follow program simulator.stepLimit.toNat (.enter entry buffer)).1
    let last := (run program simulator.stepLimit.toNat (.enter entry buffer)).state
    let answer := (Simulator.call program entry width).result ⟨simulator, buffer⟩
    Course program (.enter entry buffer) path last ∧
      answer.1 = .ok () ∧
      answer.2.simulator.steps = path.length + 1 ∧
      answer.2.simulator.registers = last.registers ∧
      answer.2.buffer.length = buffer.length ∧
      (∀ place, place < width.size →
        answer.2.buffer[place]? = last.registers[width.firstRegister + place]?) ∧
      ∀ place, width.size ≤ place →
        answer.2.buffer[place]? =
          (path.filterMap (Executed.storedAt place)).getLast?.or buffer[place]? := by
  intro path last answer
  obtain ⟨course, stepsEq⟩ := course_of_returned returned
  obtain ⟨pointing, lengthEq, bytesEq⟩ := course.buffer (pointer_enter entry buffer) keeps
  have resultLength := length_resultBytes last.registers width
  have small : width.size ≤ 4 := by
    cases width with
    | byte => decide
    | word => decide
    | dword => decide
  have fits : 0 + (resultBytes last.registers width).length ≤ last.buffer.length := by
    rw [Nat.zero_add, resultLength, lengthEq]
    exact wide
  have delivers := deliver_place (resultBytes last.registers width) fits (by omega)
  rw [show bufferAddress + (0 : Nat).toUInt16 = last.pointer from pointing.symm] at delivers
  have answered : answer = _ := call_of_returned returned delivers
  rw [answered]
  refine ⟨course, rfl, stepsEq, rfl, (Bytes.length_splice fits).trans lengthEq, ?_, ?_⟩
  · intro place inside
    rw [Bytes.getElem?_splice fits, if_pos (by omega)]
    exact getElem?_resultBytes last.registers width inside
  · intro place behind
    rw [Bytes.getElem?_splice fits, if_neg (by omega), bytesEq]
    rfl

/-- A capsule that stores twice at the distance 3: first in a part that it calls,
which also stores at 0 and at 5, and then before it returns. -/
def storingImage : Flash.Image :=
  ⟨0x240, #[0x03, 0xD0, 0x87, 0xE0, 0x8B, 0x83, 0x08, 0x95, 0x05, 0xE5, 0x0B, 0x83, 0x08, 0x83,
    0x0D, 0x83, 0x08, 0x95], [⟨⟨0x240⟩, 18, .library⟩], none⟩

def storingBuffer : Bytes := [0xA0, 0xA1, 0xA2, 0xA3, 0xA4, 0xA5]

/-- Behind the result stand the later of the stores at 3 and the store at 5. The
store at 0 is lost. -/
theorem storing_capsule_fills_its_buffer :
    let answer := (Simulator.call storingImage.archive ⟨0x120⟩ .word).result
      ⟨.start 50, storingBuffer⟩
    ReturnWidth.word.size ≤ storingBuffer.length ∧
      (run storingImage.archive 50 (.enter ⟨0x120⟩ storingBuffer)).outcome = .ok () ∧
      (∀ executed ∈ (follow storingImage.archive 50 (.enter ⟨0x120⟩ storingBuffer)).1,
        executed.instruction.keepsPointer = true) ∧
      answer.1 = .ok () ∧ answer.2.buffer.length = 6 ∧ answer.2.buffer[0]? = some 7 ∧
      answer.2.buffer[3]? = some 7 ∧ answer.2.buffer[4]? = some 0xA4 ∧
      answer.2.buffer[5]? = some 0x55 := by
  have returned : (run storingImage.archive 50 (.enter ⟨0x120⟩ storingBuffer)).outcome = .ok () := by
    decide +kernel
  have keeps : ∀ executed ∈ (follow storingImage.archive 50 (.enter ⟨0x120⟩ storingBuffer)).1,
      executed.instruction.keepsPointer = true := by
    decide +kernel
  obtain ⟨-, answered, -, -, lengthEq, results, stored⟩ :=
    result_is_delivered_before_stores storingImage.archive ⟨0x120⟩ .word (.start 50) storingBuffer
      (by decide) returned keeps
  exact ⟨by decide, returned, keeps, answered, lengthEq,
    (results 0 (by decide)).trans (by decide +kernel),
    (stored 3 (by decide)).trans (by decide +kernel),
    (stored 4 (by decide)).trans (by decide +kernel),
    (stored 5 (by decide)).trans (by decide +kernel)⟩

end CodeCapsules.Machine
