import CodeCapsules.Machine.Simulator
import CodeCapsules.Proofs.Region

/-!
Contract: what the budget of a call decides.

A run with a budget is told from the course that the machine takes without one.
The course is cut off where the budget is spent, and otherwise the run goes to
the instruction at which the machine stops by itself.

Owns:
- `Course`, the instructions that the machine executes from one state to
  another;
- `Stops`, the ways in which it ends at an instruction;
- runs and calls under any budget.

Main statement: the budget decides whether a call ends, never how. A call that
ends after some instructions ends so under every budget that covers them, and
under every smaller one it spends all of it.
-/

namespace CodeCapsules.Machine

open Flash (Archive)

/-- An instruction that was executed, with its word and the state it found. -/
structure Executed where
  state : State
  word : UInt16
  instruction : Instruction
deriving DecidableEq, Repr

def Executed.event (executed : Executed) : Event :=
  .instructionFetched executed.state.next executed.word

/-- The instructions that the machine executes from a state on, at most `count` of
them, and the state it gets to. A return of the outermost call is none of them. -/
def follow (program : Archive) : (count : Nat) → State → List Executed × State
  | 0, state => ([], state)
  | count + 1, state =>
    match fetch program state.next with
    | .error _ => ([], state)
    | .ok word =>
      match Instruction.decode? word with
      | none => ([], state)
      | some instruction =>
        match state.execute instruction with
        | .ok (some after) =>
          let (path, last) := follow program count after
          (⟨state, word, instruction⟩ :: path, last)
        | _ => ([], state)

/-- The machine gets from a state to another by executing these instructions. -/
inductive Course (program : Archive) : State → List Executed → State → Prop where
  | done (state : State) : Course program state [] state
  | step {state after last : State} {word : UInt16} {instruction : Instruction}
      {rest : List Executed} (fetched : fetch program state.next = .ok word)
      (decoded : Instruction.decode? word = some instruction)
      (executed : state.execute instruction = .ok (some after))
      (behind : Course program after rest last) :
      Course program state (⟨state, word, instruction⟩ :: rest) last

/-- The machine gets no further than this state, with an outcome and with what it
reports of its last instruction. -/
inductive Stops (program : Archive) (state : State) :
    Outcome Error Unit → List Event → Prop where
  | unfetched {stop : Stop Error} (failed : fetch program state.next = .error stop) :
      Stops program state (.error stop) []
  | unknown {word : UInt16} (fetched : fetch program state.next = .ok word)
      (undecoded : Instruction.decode? word = none) :
      Stops program state (Outcome.refuse (.unsupportedOpcode state.next word))
        [.instructionFetched state.next word]
  | failed {word : UInt16} {instruction : Instruction} {cause : Error}
      (fetched : fetch program state.next = .ok word)
      (decoded : Instruction.decode? word = some instruction)
      (failed : state.execute instruction = .error cause) :
      Stops program state (Outcome.refuse cause) [.instructionFetched state.next word]
  | returned {word : UInt16} {instruction : Instruction}
      (fetched : fetch program state.next = .ok word)
      (decoded : Instruction.decode? word = some instruction)
      (returned : state.execute instruction = .ok none) :
      Stops program state (.ok ()) [.instructionFetched state.next word]

section Courses

variable {program : Archive} {state last : State} {path : List Executed}
  {outcome : Outcome Error Unit} {reported : List Event}

theorem stops_or_goesOn (program : Archive) (state : State) :
    (∃ outcome reported, Stops program state outcome reported) ∨
      ∃ word instruction after, fetch program state.next = .ok word ∧
        Instruction.decode? word = some instruction ∧
        state.execute instruction = .ok (some after) := by
  cases fetched : fetch program state.next with
  | error stop => exact .inl ⟨_, _, .unfetched fetched⟩
  | ok word =>
      cases decoded : Instruction.decode? word with
      | none => exact .inl ⟨_, _, .unknown fetched decoded⟩
      | some instruction =>
          cases executed : state.execute instruction with
          | error cause => exact .inl ⟨_, _, .failed fetched decoded executed⟩
          | ok next =>
              cases next with
              | none => exact .inl ⟨_, _, .returned fetched decoded executed⟩
              | some after => exact .inr ⟨word, instruction, after, rfl, decoded, executed⟩

theorem Stops.follow (stops : Stops program state outcome reported) (count : Nat) :
    follow program count state = ([], state) := by
  cases count with
  | zero => rfl
  | succ count =>
      unfold Machine.follow
      cases stops with
      | unfetched failed => simp only [failed]
      | unknown fetched undecoded => simp only [fetched, undecoded]
      | failed fetched decoded failed => simp only [fetched, decoded, failed]
      | returned fetched decoded returned => simp only [fetched, decoded, returned]

/-- The machine executes as many instructions as it may, unless it stops before. -/
theorem follow_course (program : Archive) (count : Nat) (state : State) :
    Course program state (follow program count state).1 (follow program count state).2 ∧
      ((follow program count state).1.length = count ∨
        (follow program count state).1.length < count ∧
          ∃ outcome reported, Stops program (follow program count state).2 outcome reported) := by
  induction count generalizing state with
  | zero => exact ⟨.done state, .inl rfl⟩
  | succ count inductionHypothesis =>
      rcases stops_or_goesOn program state with
        ⟨outcome, reported, stops⟩ | ⟨word, instruction, after, fetched, decoded, executed⟩
      · rw [stops.follow]
        exact ⟨.done state, .inr ⟨Nat.succ_pos count, outcome, reported, stops⟩⟩
      · have goesOn : follow program (count + 1) state =
            (⟨state, word, instruction⟩ :: (follow program count after).1,
              (follow program count after).2) := by
          rw [follow]
          simp only [fetched, decoded, executed]
        obtain ⟨course, ended⟩ := inductionHypothesis after
        rw [goesOn]
        refine ⟨.step fetched decoded executed course, ?_⟩
        rcases ended with spent | ⟨affordable, stops⟩
        · exact .inl (congrArg (· + 1) spent)
        · exact .inr ⟨Nat.succ_lt_succ affordable, stops⟩

theorem Course.take (course : Course program state path last) (count : Nat) :
    ∃ middle, Course program state (path.take count) middle := by
  induction course generalizing count with
  | done state => exact ⟨state, by rw [List.take_nil]; exact .done state⟩
  | @step state after last word instruction rest fetched decoded executed behind
      inductionHypothesis =>
      cases count with
      | zero => exact ⟨state, .done state⟩
      | succ count =>
          obtain ⟨middle, taken⟩ := inductionHypothesis count
          exact ⟨middle, .step fetched decoded executed taken⟩

/-! ## Runs -/

/-- A run follows the course of the machine while its budget lasts. -/
theorem Course.runFor (course : Course program state path last) (limit budget steps : Nat)
    (events : List Event) :
    runFor program limit (path.length + budget) state steps events =
      runFor program limit budget last (steps + path.length)
        ((path.map Executed.event).reverse ++ events) := by
  induction course generalizing steps events with
  | done state => simp
  | @step state after last word instruction rest fetched decoded executed behind
      inductionHypothesis =>
      rw [List.length_cons, Nat.add_right_comm, Machine.runFor]
      simp only [fetched, decoded, executed]
      rw [inductionHypothesis]
      simp [Executed.event, Nat.add_assoc, Nat.add_comm 1]

theorem Stops.runFor (stops : Stops program state outcome reported) (limit budget steps : Nat)
    (events : List Event) :
    runFor program limit (budget + 1) state steps events =
      ⟨outcome, state, steps + 1, reported ++ events⟩ := by
  unfold Machine.runFor
  cases stops with
  | unfetched failed => simp [failed]
  | unknown fetched undecoded => simp [fetched, undecoded]
  | failed fetched decoded failed => simp [fetched, decoded, failed]
  | returned fetched decoded returned => simp [fetched, decoded, returned]

/-- A budget that covers the last instruction has no influence. -/
theorem Course.run_of_stops (course : Course program state path last)
    (stops : Stops program last outcome reported) {limit : Nat}
    (affordable : path.length < limit) :
    run program limit state =
      ⟨outcome, last, path.length + 1, reported ++ (path.map Executed.event).reverse⟩ := by
  obtain ⟨budget, rfl⟩ : ∃ budget, limit = path.length + (budget + 1) :=
    ⟨limit - path.length - 1, by omega⟩
  unfold run
  rw [course.runFor, stops.runFor]
  simp

/-- A budget for instructions that are all executed is spent. -/
theorem Course.run_of_spent (course : Course program state path last) {limit : Nat}
    (spent : limit ≤ path.length) :
    (run program limit state).outcome = Outcome.refuse (.stepLimitExceeded limit) ∧
      (run program limit state).steps = limit := by
  obtain ⟨middle, taken⟩ := course.take limit
  have cut := taken.runFor limit 0 0 []
  rw [List.length_take_of_le spent, Nat.add_zero, Nat.zero_add] at cut
  unfold run
  rw [cut]
  exact ⟨rfl, rfl⟩

/-! ## Calls -/

theorem storeByte_eq_error {buffer : Bytes} {address : UInt16} {value : UInt8} {cause : Error}
    (failed : State.storeByte buffer address value = .error cause) :
    cause = .storeOutOfBounds address := by
  unfold State.storeByte at failed
  split at failed
  · contradiction
  · exact (Except.error.inj failed).symm

theorem error_of_bind_pure {α β : Type} {first : Except Error α} {change : α → β} {cause : Error}
    (failed : (first >>= fun value => pure (change value)) = .error cause) :
    first = .error cause := by
  cases first with
  | ok value => contradiction
  | error given => exact congrArg Except.error (Except.error.inj failed)

/-- An instruction that is known can only fail as a store. -/
theorem execute_eq_error {instruction : Instruction} {cause : Error}
    (failed : state.execute instruction = .error cause) :
    ∃ address, cause = .storeOutOfBounds address := by
  cases instruction with
  | nop => contradiction
  | ret =>
      simp only [State.execute] at failed
      split at failed
      · contradiction
      · contradiction
  | loadImmediate target constant => contradiction
  | move target source => contradiction
  | add target source => contradiction
  | storeAdvance source => exact ⟨_, storeByte_eq_error (error_of_bind_pure failed)⟩
  | storeAt distance source => exact ⟨_, storeByte_eq_error (error_of_bind_pure failed)⟩
  | call distance => contradiction

theorem deliver_eq_error {buffer : Bytes} {address : UInt16} {bytes : Bytes} {cause : Error}
    (failed : (deliver buffer address bytes).2 = .error cause) :
    ∃ missed, cause = .storeOutOfBounds missed := by
  induction bytes generalizing buffer address with
  | nil => contradiction
  | cons byte rest inductionHypothesis =>
      unfold deliver at failed
      split at failed
      · rename_i given stored
        obtain rfl := Except.error.inj failed
        exact ⟨_, storeByte_eq_error stored⟩
      · exact inductionHypothesis failed

theorem fetch_ne_exceeded (program : Archive) (address : InstructionAddress) (limit : Nat) :
    fetch program address ≠ Outcome.refuse (.stepLimitExceeded limit) := by
  unfold fetch
  cases program.readWord address.toCode with
  | ok word => simp [Outcome.refuse]
  | error stop =>
      cases stop with
      | refused cause => simp [Outcome.refuse]
      | halted halt => simp [Outcome.refuse, Outcome.mapCause, Stop.mapCause]

/-- Only the budget refuses for being spent. -/
theorem Stops.ne_exceeded (stops : Stops program state outcome reported) (limit : Nat) :
    outcome ≠ Outcome.refuse (.stepLimitExceeded limit) := by
  cases stops with
  | unfetched failed =>
      rintro exceeded
      apply fetch_ne_exceeded program state.next limit
      rw [failed]
      exact congrArg Except.error (Except.error.inj exceeded)
  | unknown => simp [Outcome.refuse]
  | failed fetched decoded failed =>
      obtain ⟨address, rfl⟩ := execute_eq_error failed
      simp [Outcome.refuse]
  | returned => simp [Outcome.refuse]

end Courses

section Calls

variable {program : Archive} {entry : InstructionAddress} {width : ReturnWidth} {buffer : Bytes}
  {simulator : Simulator}

theorem call_steps :
    (Simulator.call program entry width ⟨simulator, buffer⟩).2.simulator.steps =
      (run program simulator.stepLimit.toNat (.enter entry buffer)).steps := by
  unfold Simulator.call
  simp only
  repeat' split
  all_goals rfl

theorem call_exceeded_iff {limit : Nat} :
    (Simulator.call program entry width ⟨simulator, buffer⟩).1.outcome =
        Outcome.refuse (.stepLimitExceeded limit) ↔
      (run program simulator.stepLimit.toNat (.enter entry buffer)).outcome =
        Outcome.refuse (.stepLimitExceeded limit) := by
  unfold Simulator.call
  simp only
  split
  · rename_i stop failed
    rw [failed]
  · rename_i done
    rw [done]
    split
    · rename_i given cause delivered
      obtain ⟨address, rfl⟩ := deliver_eq_error (congrArg Prod.snd delivered)
      simp [Outcome.refuse]
    · rfl

/-- Another budget under which the run is the same does not change the call. -/
theorem call_of_run_eq (other : Simulator)
    (same : run program other.stepLimit.toNat (.enter entry buffer) =
      run program simulator.stepLimit.toNat (.enter entry buffer)) :
    Simulator.call program entry width ⟨other, buffer⟩ =
      ((Simulator.call program entry width ⟨simulator, buffer⟩).1,
        ⟨{ (Simulator.call program entry width ⟨simulator, buffer⟩).2.simulator with
            stepLimit := other.stepLimit },
          (Simulator.call program entry width ⟨simulator, buffer⟩).2.buffer⟩) := by
  unfold Simulator.call
  simp only [same]
  repeat' split
  all_goals rfl

end Calls

/-- The call spends its whole budget and is refused for it. -/
def SpendsBudget (program : Archive) (entry : InstructionAddress) (width : ReturnWidth)
    (buffer : Bytes) (simulator : Simulator) : Prop :=
  (Simulator.call program entry width ⟨simulator, buffer⟩).1.outcome =
      Outcome.refuse (.stepLimitExceeded simulator.stepLimit.toNat) ∧
    (Simulator.call program entry width ⟨simulator, buffer⟩).2.simulator.steps =
      simulator.stepLimit.toNat

/-- The budget of a call only decides whether it ends. A call that is not refused
for its budget takes at least one instruction and no more than the budget. Under
every budget that covers as many instructions, whatever the processor ran
before, it reports, answers, delivers and leaves the same, and it spends every
smaller one. A call that is refused for its budget has spent it, and spends
every smaller one too. -/
theorem budget_decides_only_whether_calls_end (program : Archive) (entry : InstructionAddress)
    (width : ReturnWidth) (buffer : Bytes) (simulator : Simulator) :
    let call := fun processor : Simulator => Simulator.call program entry width ⟨processor, buffer⟩
    let steps := (call simulator).2.simulator.steps
    ((∀ limit, (call simulator).1.outcome ≠ Outcome.refuse (.stepLimitExceeded limit)) →
      1 ≤ steps ∧ steps ≤ simulator.stepLimit.toNat ∧
        (∀ other : Simulator, steps ≤ other.stepLimit.toNat →
          call other = ((call simulator).1,
            ⟨⟨(call simulator).2.simulator.registers, other.stepLimit, steps⟩,
              (call simulator).2.buffer⟩)) ∧
        ∀ other : Simulator, other.stepLimit.toNat < steps →
          SpendsBudget program entry width buffer other) ∧
    ∀ limit, (call simulator).1.outcome = Outcome.refuse (.stepLimitExceeded limit) →
      ∀ other : Simulator, other.stepLimit.toNat ≤ simulator.stepLimit.toNat →
        SpendsBudget program entry width buffer other := by
  intro call steps
  obtain ⟨course, ended⟩ :=
    follow_course program simulator.stepLimit.toNat (.enter entry buffer)
  generalize (follow program simulator.stepLimit.toNat (.enter entry buffer)).1 = path,
    (follow program simulator.stepLimit.toNat (.enter entry buffer)).2 = last at course ended
  have spends : ∀ other : Simulator, other.stepLimit.toNat ≤ path.length →
      SpendsBudget program entry width buffer other := by
    intro other covered
    obtain ⟨outcome, spent⟩ := course.run_of_spent covered
    exact ⟨call_exceeded_iff.mpr outcome, call_steps.trans spent⟩
  rcases ended with spent | ⟨affordable, outcome, reported, stops⟩
  · refine ⟨?_, ?_⟩
    · intro finite
      exact absurd (spends simulator (Nat.le_of_eq spent.symm)).1 (finite _)
    · intro limit _ other smaller
      exact spends other (by omega)
  · have ran := course.run_of_stops stops affordable
    have stepsEq : steps = path.length + 1 := call_steps.trans (congrArg Run.steps ran)
    refine ⟨?_, ?_⟩
    · intro _
      refine ⟨by omega, by omega, ?_, ?_⟩
      · intro other covers
        have ranOther := course.run_of_stops stops (by omega : path.length < other.stepLimit.toNat)
        exact call_of_run_eq other (ranOther.trans ran.symm)
      · intro other smaller
        exact spends other (by omega)
    · intro limit exceeded
      have stopped := call_exceeded_iff.mp exceeded
      rw [ran] at stopped
      exact absurd stopped (stops.ne_exceeded limit)

/-- A capsule that calls a part of itself: the part loads one result register,
and then the capsule loads the other and returns. -/
def nestedImage : Flash.Image :=
  ⟨0x200, #[0x02, 0xD0, 0x87, 0xE0, 0x08, 0x95, 0x91, 0xE0, 0x08, 0x95],
    [⟨⟨0x200⟩, 10, .library⟩], none⟩

theorem nested_call_takes_five_instructions :
    (Simulator.call nestedImage.archive ⟨0x100⟩ .word ⟨.start 100, [0, 0]⟩).1.outcome = .ok () ∧
      (Simulator.call nestedImage.archive ⟨0x100⟩ .word ⟨.start 5, [0, 0]⟩).2 =
        ⟨⟨(Simulator.call nestedImage.archive ⟨0x100⟩ .word
          ⟨.start 100, [0, 0]⟩).2.simulator.registers, 5, 5⟩, [7, 1]⟩ ∧
      SpendsBudget nestedImage.archive ⟨0x100⟩ .word [0, 0] (.start 4) := by
  have ended : (Simulator.call nestedImage.archive ⟨0x100⟩ .word
      ⟨.start 100, [0, 0]⟩).1.outcome = .ok () := by decide +kernel
  have steps : (Simulator.call nestedImage.archive ⟨0x100⟩ .word
      ⟨.start 100, [0, 0]⟩).2.simulator.steps = 5 := by decide +kernel
  have delivered : (Simulator.call nestedImage.archive ⟨0x100⟩ .word
      ⟨.start 100, [0, 0]⟩).2.buffer = [7, 1] := by decide +kernel
  obtain ⟨-, -, covered, smaller⟩ :=
    (budget_decides_only_whether_calls_end nestedImage.archive ⟨0x100⟩ .word [0, 0]
      (.start 100)).1 (by rw [ended]; simp [Outcome.refuse])
  rw [steps, delivered] at covered
  rw [steps] at smaller
  exact ⟨ended, congrArg Prod.snd (covered (.start 5) (by decide)), smaller (.start 4) (by decide)⟩

end CodeCapsules.Machine
