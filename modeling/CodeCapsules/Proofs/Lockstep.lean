import CodeCapsules.Machine.Simulator
import CodeCapsules.Proofs.Assembly

/-!
Contract: a program runs on the machine as its lines are written.

Owns:
- `Frame`, a program that is run line by line, without words or addresses of
  instructions. It has its own account of `Y`, of stores and of results, and
  shares no operation with the machine;
- `Frame.place`, the state of the machine in which a frame is, and for each
  operation of the machine that it does to the state what the lines do to the
  frame;
- `Loaded`, an archive from which the lines of a program are fetched;
- whole runs, and calls with the delivery of their result.

Main statement: where the lines of a program are loaded, a call of the machine
ends as the program does that is run line by line, for every execution that
stays inside the program.
-/

namespace CodeCapsules.Machine

open Flash (Archive)

/-! ## Running lines -/

/-- A program that is run line by line. -/
structure Frame where
  /-- The byte in each register, by the number of the register. -/
  registers : Nat → UInt8
  /-- The line that comes next. -/
  index : Int
  /-- The lines that pending calls return to, the innermost first. -/
  returns : List Int
  /-- The caller's return buffer. -/
  buffer : Bytes

namespace Frame

/-- The frame in which a call starts. `Y` is `0x0100`, where the return buffer
begins, and `Z` is the word address of the program. -/
def enter (entry : UInt16) (buffer : Bytes) : Frame where
  registers register :=
    if register = 29 then 1
    else if register = 30 then entry.toNat.toUInt8
    else if register = 31 then (entry.toNat / 256).toUInt8
    else 0
  index := 0
  returns := []
  buffer

/-- Where `Y` points. Its low byte is in register 28, and the high one in 29. -/
def pointer (frame : Frame) : Nat :=
  (frame.registers 28).toNat + 256 * (frame.registers 29).toNat

def setRegister (frame : Frame) (target : Nat) (value : UInt8) : Frame :=
  { frame with
    registers := fun register => if register = target then value else frame.registers register }

/-- Moves `Y` on by one. The low byte is counted up, and carries into the high
one. -/
def advance (frame : Frame) : Frame :=
  let low := frame.registers 28 + 1
  let high := if low = 0 then frame.registers 29 + 1 else frame.registers 29
  (frame.setRegister 28 low).setRegister 29 high

/-- Stores a byte at a data address, which is counted modulo 64 KiB. There is no
memory but the return buffer, from `0x0100` on. -/
def put (frame : Frame) (address : Nat) (value : UInt8) : Except Error Frame :=
  let place := address % 65536
  if 256 ≤ place ∧ place < 256 + frame.buffer.length then
    .ok { frame with buffer := frame.buffer.set (place - 256) value }
  else
    .error (.storeOutOfBounds place.toUInt16)

def goOn (frame : Frame) : Frame := { frame with index := frame.index + 1 }

/-- What a line does: it leads to another frame, or returns from the program. -/
def step (frame : Frame) : Line → Except Error (Option Frame)
  | .nop => .ok (some frame.goOn)
  | .ret =>
    match frame.returns with
    | [] => .ok none
    | index :: returns => .ok (some { frame with index, returns })
  | .loadImmediate target constant =>
    .ok (some (frame.setRegister (16 + target.val) constant).goOn)
  | .move target source =>
    .ok (some (frame.setRegister target.val (frame.registers source.val)).goOn)
  | .add target source =>
    .ok (some (frame.setRegister target.val
      (frame.registers target.val + frame.registers source.val)).goOn)
  | .store source =>
    (frame.put frame.pointer (frame.registers source.val)).map fun stored => some stored.goOn
  | .storeAdvance source =>
    (frame.put frame.pointer (frame.registers source.val)).map
      fun stored => some stored.advance.goOn
  | .storeAt distance source =>
    (frame.put (frame.pointer + distance.val) (frame.registers source.val)).map
      fun stored => some stored.goOn
  | .call distance _ _ =>
    .ok (some {
      frame with
      index := frame.index + 1 + distance.toInt
      returns := (frame.index + 1) :: frame.returns })

/-- Stores registers from a data address on, one behind the other, up to one that
misses the buffer. -/
def handOver (frame : Frame) (address : Nat) : List Nat → Except Error Unit × Frame
  | [] => (.ok (), frame)
  | register :: rest =>
    match frame.put address (frame.registers register) with
    | .error cause => (.error cause, frame)
    | .ok stored => stored.handOver (address + 1) rest

/-- All registers, as a register file. -/
def file (frame : Frame) : Registers := .ofFn fun register => frame.registers register.val

end Frame

/-- The line at an index, if that is inside the program. -/
def lineAt (lines : List Line) (index : Int) : Option Line :=
  if 0 ≤ index then lines[index.toNat]? else none

/-- How lines ended, in which frame, and after how many of them. -/
structure Ending where
  outcome : Outcome Error Unit
  frame : Frame
  steps : Nat

/-- Runs lines while `budget` lasts. There is no answer if the next line is
outside the program. -/
def runLines (lines : List Line) (limit : Nat) : Nat → Frame → Nat → Option Ending
  | 0, frame, steps => some ⟨Outcome.refuse (.stepLimitExceeded limit), frame, steps⟩
  | budget + 1, frame, steps =>
    match lineAt lines frame.index with
    | none => none
    | some line =>
      match frame.step line with
      | .error cause => some ⟨Outcome.refuse cause, frame, steps + 1⟩
      | .ok none => some ⟨.ok (), frame, steps + 1⟩
      | .ok (some next) => runLines lines limit budget next (steps + 1)

/-- The registers in which a result is returned, its low byte first. -/
def returnRegisters : ReturnWidth → List Nat
  | .byte => [24]
  | .word => [24, 25]
  | .dword => [22, 23, 24, 25]

/-- Hands over the result of a program that returned to where `Y` points. -/
def Ending.delivered (ending : Ending) (width : ReturnWidth) : Ending :=
  match ending.outcome with
  | .error _ => ending
  | .ok () =>
    let handed := ending.frame.handOver ending.frame.pointer (returnRegisters width)
    { ending with outcome := Outcome.ofExcept handed.1, frame := handed.2 }

/-- Calls a program line by line. -/
def callLines (lines : List Line) (entry : UInt16) (width : ReturnWidth) (limit : Nat)
    (buffer : Bytes) : Option Ending :=
  (runLines lines limit limit (.enter entry buffer) 0).map (Ending.delivered · width)

/-! ## The machine beside the lines -/

def lineAddress (entry : UInt16) (index : Int) : InstructionAddress :=
  ⟨entry + UInt16.ofInt index⟩

/-- The state of the machine in which a frame is. -/
def Frame.place (entry : UInt16) (frame : Frame) : State :=
  ⟨frame.file, lineAddress entry frame.index, frame.returns.map (lineAddress entry), frame.buffer⟩

theorem lineAddress_zero (entry : UInt16) : lineAddress entry 0 = ⟨entry⟩ := by
  unfold lineAddress
  exact congrArg InstructionAddress.mk (UInt16.add_zero entry)

theorem lineAddress_add (entry : UInt16) (index distance : Int) :
    lineAddress entry (index + distance) =
      ⟨(lineAddress entry index).value + UInt16.ofInt distance⟩ := by
  unfold lineAddress
  rw [UInt16.ofInt_add, UInt16.add_assoc]

theorem following_place (entry : UInt16) (frame : Frame) :
    (frame.place entry).following = lineAddress entry (frame.index + 1) := by
  rw [lineAddress_add]
  rfl

theorem ofInt_toInt (distance : Int16) : UInt16.ofInt distance.toInt = distance.toUInt16 := by
  have cast : (distance.toBitVec.toInt % ((2 ^ 16 : Nat) : Int)).toNat =
      distance.toBitVec.toNat := by
    rw [← BitVec.toNat_ofInt, BitVec.ofInt_toInt]
  have bound := distance.toBitVec.isLt
  rw [Int16.toInt_toBitVec] at cast
  apply UInt16.toNat_inj.mp
  show (distance.toInt % 2 ^ 16).toNat % 2 ^ 16 = distance.toBitVec.toNat
  omega

/-! ### Words of two bytes -/

theorem toUInt8_shiftRight (word : UInt16) :
    (word >>> 8).toUInt8 = (word.toNat / 256).toUInt8 := by
  apply UInt8.toNat_inj.mp
  rw [UInt16.toNat_toUInt8, UInt16.toNat_shiftRight, UInt8.toNat_ofNat']
  exact congrArg (· % 256) (Nat.shiftRight_eq_div_pow _ 8)

section Carry

variable (low high : UInt8)

theorem toNat_word_succ :
    ((low.toNat + 256 * high.toNat).toUInt16 + 1).toNat =
      (low.toNat + 256 * high.toNat + 1) % 65536 := by
  rw [UInt16.toNat_add, UInt16.toNat_ofNat', UInt16.toNat_one]
  omega

theorem low_word_succ : ((low.toNat + 256 * high.toNat).toUInt16 + 1).toUInt8 = low + 1 := by
  have highLt := high.toNat_lt
  apply UInt8.toNat_inj.mp
  rw [UInt16.toNat_toUInt8, toNat_word_succ, UInt8.toNat_add, UInt8.toNat_one]
  omega

/-- A word that is counted up carries from its low byte into its high one. -/
theorem high_word_succ :
    (((low.toNat + 256 * high.toNat).toUInt16 + 1) >>> 8).toUInt8 =
      if low + 1 = 0 then high + 1 else high := by
  have lowLt := low.toNat_lt
  have highLt := high.toNat_lt
  have carries : low + 1 = 0 ↔ low.toNat = 255 := by
    rw [← UInt8.toNat_inj, UInt8.toNat_add, UInt8.toNat_one, UInt8.toNat_zero]
    omega
  apply UInt8.toNat_inj.mp
  rw [toUInt8_shiftRight, toNat_word_succ, UInt8.toNat_ofNat']
  by_cases full : low.toNat = 255
  · rw [if_pos (carries.mpr full), UInt8.toNat_add, UInt8.toNat_one]
    omega
  · rw [if_neg (full ∘ carries.mp)]
    omega

end Carry

/-! ### Registers -/

theorem file_setRegister (frame : Frame) (value : UInt8) {target : Nat} (inside : target < 32) :
    (frame.setRegister target value).file = frame.file.set target value inside := by
  apply Vector.ext
  intro register _
  simp only [Frame.file, Frame.setRegister, Vector.getElem_ofFn, Vector.getElem_set, eq_comm]

theorem setRegister_place (entry : UInt16) (frame : Frame) (target : Register) (value : UInt8) :
    (frame.place entry).setRegister target value =
      (frame.setRegister target.val value).goOn.place entry := by
  have written : (frame.setRegister target.val value).goOn.file =
      frame.file.set target.val value target.isLt := file_setRegister frame value target.isLt
  unfold State.setRegister
  rw [following_place]
  unfold Frame.place
  rw [written]
  rfl

theorem register_place (entry : UInt16) (frame : Frame) {register : Nat} (inside : register < 32) :
    (frame.place entry).registers[register] = frame.registers register := by
  simp [Frame.place, Frame.file]

theorem Frame.pointer_lt (frame : Frame) : frame.pointer < 65536 := by
  have lowLt := (frame.registers 28).toNat_lt
  have highLt := (frame.registers 29).toNat_lt
  unfold Frame.pointer
  omega

theorem pointer_place (entry : UInt16) (frame : Frame) :
    (frame.place entry).pointer = frame.pointer.toUInt16 := by
  have low : (frame.place entry).registers[28] = frame.registers 28 :=
    register_place entry frame (by decide)
  have high : (frame.place entry).registers[29] = frame.registers 29 :=
    register_place entry frame (by decide)
  apply UInt16.toNat_inj.mp
  rw [UInt16.toNat_ofNat', Nat.mod_eq_of_lt frame.pointer_lt]
  unfold State.pointer
  rw [low, high, Bytes.toNat_word]
  rfl

theorem setPair_advance (frame : Frame) :
    State.setPair frame.file 28 (frame.pointer.toUInt16 + 1) = frame.advance.file := by
  unfold State.setPair Frame.advance Frame.pointer
  rw [file_setRegister _ _ (by decide : 29 < 32), file_setRegister _ _ (by decide : 28 < 32),
    low_word_succ, high_word_succ]
  rfl

theorem enter_place (entry : UInt16) (buffer : Bytes) :
    (Frame.enter entry buffer).place entry = State.enter ⟨entry⟩ buffer := by
  have registers : (Frame.enter entry buffer).file = (State.enter ⟨entry⟩ buffer).registers := by
    have bufferLow : bufferAddress.toUInt8 = 0 := rfl
    have bufferHigh : (bufferAddress >>> 8).toUInt8 = 1 := rfl
    have low : entry.toUInt8 = entry.toNat.toUInt8 := rfl
    apply Vector.ext
    intro register inside
    simp only [State.enter, State.setPair, Frame.file, Frame.enter, Vector.getElem_ofFn,
      Vector.getElem_set, Vector.getElem_replicate, bufferLow, bufferHigh, low,
      toUInt8_shiftRight entry]
    grind
  have start : (Frame.enter entry buffer).place entry =
      ⟨(Frame.enter entry buffer).file, lineAddress entry 0, [], buffer⟩ := rfl
  rw [start, registers, lineAddress_zero]
  rfl

/-! ### Stores -/

theorem put_eq (frame : Frame) (address : Nat) (value : UInt8) :
    frame.put address value =
      (State.storeByte frame.buffer address.toUInt16 value).map
        fun buffer => { frame with buffer } := by
  have addressEq : address.toUInt16.toNat = address % 65536 := UInt16.toNat_ofNat'
  have start : bufferAddress.toNat = 256 := rfl
  unfold Frame.put State.storeByte
  simp only [UInt16.le_iff_toNat_le, addressEq, start]
  by_cases inside : 256 ≤ address % 65536 ∧ address % 65536 < 256 + frame.buffer.length
  · rw [if_pos inside, if_pos (by omega)]
    rfl
  · rw [if_neg inside, if_neg (by omega)]
    have same : (address % 65536).toUInt16 = address.toUInt16 := by
      apply UInt16.toNat_inj.mp
      rw [addressEq, UInt16.toNat_ofNat']
      exact Nat.mod_mod address 65536
    rw [same]
    rfl

theorem execute_storeAt (entry : UInt16) (frame : Frame) (distance : Fin 64) (source : Register) :
    (frame.place entry).execute (.storeAt distance source) =
      ((frame.put (frame.pointer + distance.val) (frame.registers source.val)).map
        fun stored => some stored.goOn).map (Option.map (Frame.place entry)) := by
  have address : frame.pointer.toUInt16 + distance.val.toUInt16 =
      (frame.pointer + distance.val).toUInt16 := (UInt16.ofNat_add _ _).symm
  simp only [State.execute, pointer_place, Fin.getElem_fin, register_place, following_place,
    address, put_eq]
  show (State.storeByte frame.buffer _ _ >>= _) = _
  cases State.storeByte frame.buffer (frame.pointer + distance.val).toUInt16
      (frame.registers source.val) with
  | error cause => rfl
  | ok buffer => rfl

theorem execute_storeAdvance (entry : UInt16) (frame : Frame) (source : Register) :
    (frame.place entry).execute (.storeAdvance source) =
      ((frame.put frame.pointer (frame.registers source.val)).map
        fun stored => some stored.advance.goOn).map (Option.map (Frame.place entry)) := by
  have moved : State.setPair (frame.place entry).registers 28 (frame.pointer.toUInt16 + 1) =
      frame.advance.file := setPair_advance frame
  simp only [State.execute, pointer_place, Fin.getElem_fin, register_place, following_place, moved,
    put_eq]
  show (State.storeByte frame.buffer _ _ >>= _) = _
  cases State.storeByte frame.buffer frame.pointer.toUInt16 (frame.registers source.val) with
  | error cause => rfl
  | ok buffer => rfl

/-- The machine does to the placed frame what the line does to the frame. -/
theorem execute_place (entry : UInt16) (frame : Frame) (line : Line) :
    (frame.place entry).execute line.instruction =
      (frame.step line).map (Option.map (Frame.place entry)) := by
  cases line with
  | nop =>
      show Except.ok (some { frame.place entry with next := (frame.place entry).following }) = _
      rw [following_place]
      rfl
  | ret =>
      obtain ⟨registers, index, returns, buffer⟩ := frame
      cases returns with
      | nil => rfl
      | cons index returns => rfl
  | loadImmediate target constant =>
      exact congrArg (Except.ok ∘ some) (setRegister_place entry frame (upper target) constant)
  | move target source =>
      show Except.ok (some ((frame.place entry).setRegister target
        (frame.place entry).registers[source])) = _
      rw [Fin.getElem_fin, register_place, setRegister_place]
      rfl
  | add target source =>
      show Except.ok (some ((frame.place entry).setRegister target
        ((frame.place entry).registers[target] + (frame.place entry).registers[source]))) = _
      rw [Fin.getElem_fin, Fin.getElem_fin, register_place, register_place, setRegister_place]
      rfl
  | store source => exact execute_storeAt entry frame 0 source
  | storeAdvance source => exact execute_storeAdvance entry frame source
  | storeAt distance source => exact execute_storeAt entry frame distance source
  | call distance lower upper =>
      show Except.ok (some { frame.place entry with
        next := ⟨(frame.place entry).following.value + distance.toUInt16⟩
        returns := (frame.place entry).following :: (frame.place entry).returns }) = _
      rw [following_place, ← ofInt_toInt, ← lineAddress_add]
      rfl

/-! ### Results -/

/-- The machine returns what is in the registers of a result. -/
theorem resultBytes_file (frame : Frame) (width : ReturnWidth) :
    resultBytes frame.file width = (returnRegisters width).map frame.registers := by
  unfold resultBytes Frame.file
  rw [Vector.toList_ofFn]
  cases width with
  | byte => rfl
  | word => rfl
  | dword => rfl

theorem deliver_handOver (frame : Frame) (address : Nat) (registers : List Nat) :
    deliver frame.buffer address.toUInt16 (registers.map frame.registers) =
      ((frame.handOver address registers).2.buffer, (frame.handOver address registers).1) := by
  induction registers generalizing frame address with
  | nil => rfl
  | cons register rest inductionHypothesis =>
      have next : address.toUInt16 + 1 = (address + 1).toUInt16 := (UInt16.ofNat_add _ 1).symm
      rw [List.map_cons, deliver, Frame.handOver, put_eq, next]
      cases State.storeByte frame.buffer address.toUInt16 (frame.registers register) with
      | error cause => rfl
      | ok buffer => exact inductionHypothesis { frame with buffer } (address + 1)

/-- The machine delivers a result as the lines hand it over. -/
theorem deliver_returnRegisters (entry : UInt16) (frame : Frame) (width : ReturnWidth) :
    deliver (frame.place entry).buffer (frame.place entry).pointer
        (resultBytes (frame.place entry).registers width) =
      ((frame.handOver frame.pointer (returnRegisters width)).2.buffer,
        (frame.handOver frame.pointer (returnRegisters width)).1) := by
  have bytes : resultBytes (frame.place entry).registers width =
      (returnRegisters width).map frame.registers := resultBytes_file frame width
  rw [pointer_place, bytes]
  exact deliver_handOver frame frame.pointer (returnRegisters width)

theorem file_put {frame stored : Frame} {address : Nat} {value : UInt8}
    (put : frame.put address value = .ok stored) : stored.file = frame.file := by
  unfold Frame.put at put
  simp only at put
  split at put
  · rw [← Except.ok.inj put]
    rfl
  · contradiction

theorem file_handOver (frame : Frame) (address : Nat) (registers : List Nat) :
    (frame.handOver address registers).2.file = frame.file := by
  induction registers generalizing frame address with
  | nil => rfl
  | cons register rest inductionHypothesis =>
      unfold Frame.handOver
      cases stored : frame.put address (frame.registers register) with
      | error cause => rfl
      | ok after => exact (inductionHypothesis after (address + 1)).trans (file_put stored)

/-! ## Whole runs -/

/-- The lines of a program are fetched from an archive, one word each. -/
def Loaded (program : Archive) (entry : UInt16) (lines : List Line) : Prop :=
  ∀ (index : Nat) (line : Line), lines[index]? = some line →
    ∃ word, fetch program (lineAddress entry index) = .ok word ∧
      Instruction.decode? word = some line.instruction

section Runs

variable {program : Archive} {entry : UInt16} {lines : List Line}

theorem Loaded.fetch_lineAt (loaded : Loaded program entry lines) {index : Int} {line : Line}
    (present : lineAt lines index = some line) :
    ∃ word, fetch program (lineAddress entry index) = .ok word ∧
      Instruction.decode? word = some line.instruction := by
  unfold lineAt at present
  split at present
  · rename_i inside
    rw [← Int.toNat_of_nonneg inside]
    exact loaded index.toNat line present
  · contradiction

/-- Where the program is loaded, the machine runs in step with the lines. -/
theorem runFor_place (loaded : Loaded program entry lines) (limit budget : Nat) (frame : Frame)
    (steps : Nat) (events : List Event) {ending : Ending}
    (ran : runLines lines limit budget frame steps = some ending) :
    (runFor program limit budget (frame.place entry) steps events).outcome = ending.outcome ∧
      (runFor program limit budget (frame.place entry) steps events).state =
        ending.frame.place entry ∧
      (runFor program limit budget (frame.place entry) steps events).steps = ending.steps := by
  -- Both runs spend one unit of the budget for each line.
  induction budget generalizing frame steps events with
  | zero =>
      unfold runLines at ran
      rw [← Option.some.inj ran]
      exact ⟨rfl, rfl, rfl⟩
  | succ budget inductionHypothesis =>
      unfold runLines at ran
      cases present : lineAt lines frame.index with
      | none =>
          rw [present] at ran
          contradiction
      | some line =>
          obtain ⟨word, fetched, decoded⟩ := loaded.fetch_lineAt present
          have fetchedHere : fetch program (frame.place entry).next = .ok word := fetched
          have executed := execute_place entry frame line
          unfold runFor
          rw [present] at ran
          simp only [fetchedHere, decoded, executed] at ran ⊢
          cases stepped : frame.step line with
          | error cause =>
              rw [stepped] at ran
              rw [← Option.some.inj ran]
              exact ⟨rfl, rfl, rfl⟩
          | ok next =>
              rw [stepped] at ran
              cases next with
              | none =>
                  rw [← Option.some.inj ran]
                  exact ⟨rfl, rfl, rfl⟩
              | some next => exact inductionHypothesis next (steps + 1) _ ran

theorem result_call (loaded : Loaded program entry lines) (width : ReturnWidth)
    (simulator : Simulator) (buffer : Bytes) {ending : Ending}
    (called : callLines lines entry width simulator.stepLimit.toNat buffer = some ending) :
    (Simulator.call program ⟨entry⟩ width).result ⟨simulator, buffer⟩ =
      (ending.outcome,
        ⟨⟨ending.frame.file, simulator.stepLimit, ending.steps⟩, ending.frame.buffer⟩) := by
  obtain ⟨ended, ran, rfl⟩ := Option.map_eq_some_iff.mp called
  have alike := runFor_place loaded simulator.stepLimit.toNat simulator.stepLimit.toNat
    (Frame.enter entry buffer) 0 [] ran
  rw [enter_place] at alike
  unfold Operation.result Simulator.call run
  generalize runFor program simulator.stepLimit.toNat simulator.stepLimit.toNat
    (State.enter ⟨entry⟩ buffer) 0 [] = machine at alike ⊢
  obtain ⟨outcome, state, steps, events⟩ := machine
  obtain ⟨outcomeEq, stateEq, stepsEq⟩ := alike
  simp only at outcomeEq stateEq stepsEq
  subst outcomeEq stateEq stepsEq
  obtain ⟨outcome, frame, steps⟩ := ended
  unfold Ending.delivered
  cases outcome with
  | error stop => rfl
  | ok done =>
      have kept := file_handOver frame frame.pointer (returnRegisters width)
      simp only [deliver_returnRegisters]
      generalize frame.handOver frame.pointer (returnRegisters width) = handed at kept ⊢
      obtain ⟨answer, left⟩ := handed
      simp only at kept
      rw [kept]
      cases answer with
      | error cause => rfl
      | ok done => rfl

end Runs

end CodeCapsules.Machine
