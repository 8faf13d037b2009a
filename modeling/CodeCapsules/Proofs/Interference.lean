import CodeCapsules.Proofs.Confinement
import CodeCapsules.Proofs.Retention

/-!
Contract: appends do not interfere with calls of the capsules that are there.

Owns:
- runs of the machine on two programs that agree on the words which one of the
  runs fetches;
- calls on two processors, whatever they ran before;
- the bytes of a record over a run of appends;
- invocations before and after appends.

Main statement: an invocation that fetches its words from the code of its record
ends in the same way after any appends, on any processor with the same budget.
-/

namespace CodeCapsules

open Flash (Archive Image)

namespace Machine

section Congruence

variable {left right : Archive}

theorem mem_runFor_events {program : Archive} {limit budget steps : Nat} {state : State}
    {events : List Event} {event : Event} (member : event ∈ events) :
    event ∈ (runFor program limit budget state steps events).events := by
  induction budget generalizing state steps events with
  | zero => exact member
  | succ budget inductionHypothesis =>
      unfold runFor
      split
      · exact member
      · simp only
        split
        · exact List.mem_cons_of_mem _ member
        · split
          · exact List.mem_cons_of_mem _ member
          · exact List.mem_cons_of_mem _ member
          · exact inductionHypothesis (List.mem_cons_of_mem _ member)

/-- A run goes the same way on another program, if the words it fetches are the
same there and what it cannot fetch cannot be fetched there either. -/
theorem runFor_congr
    (failing : ∀ address stop, fetch left address = .error stop →
      fetch right address = .error stop)
    (limit budget : Nat) (state : State) (steps : Nat) (events : List Event)
    (agreeing : ∀ address word,
      .instructionFetched address word ∈ (runFor left limit budget state steps events).events →
        fetch right address = fetch left address) :
    runFor right limit budget state steps events = runFor left limit budget state steps events := by
  induction budget generalizing state steps events with
  | zero => rfl
  | succ budget inductionHypothesis =>
      unfold runFor at agreeing ⊢
      cases fetched : fetch left state.next with
      | error stop => rw [failing _ _ fetched]
      | ok word =>
          -- The word stays among the events, however the run goes on.
          have same : fetch right state.next = .ok word := by
            rw [← fetched]
            apply agreeing _ word
            simp only [fetched]
            split
            · exact List.mem_cons_self
            · split
              · exact List.mem_cons_self
              · exact List.mem_cons_self
              · exact mem_runFor_events List.mem_cons_self
          simp only [fetched] at agreeing
          simp only [same]
          cases decoded : Instruction.decode? word with
          | none => rfl
          | some instruction =>
              simp only [decoded] at agreeing
              cases executed : state.execute instruction with
              | error cause => simp only [executed]
              | ok next =>
                  simp only [executed] at agreeing ⊢
                  cases next with
                  | none => rfl
                  | some next => exact inductionHypothesis next (steps + 1) _ agreeing

theorem mem_call_events {program : Archive} {entry : InstructionAddress} {width : ReturnWidth}
    {simulator : Simulator} {buffer : Bytes} {event : Event}
    (member : event ∈ (run program simulator.stepLimit.toNat (.enter entry buffer)).events) :
    event ∈ (Simulator.call program entry width ⟨simulator, buffer⟩).1.events := by
  unfold Simulator.call
  simp only
  split
  · simp [member]
  · split
    · simp [member]
    · simp [member]

/-- A call ends in the same way on another program and another processor, if the
words it fetches are the same there and the budget is. -/
theorem call_congr {entry : InstructionAddress} {width : ReturnWidth} {buffer : Bytes}
    {first second : Simulator} (budget : second.stepLimit = first.stepLimit)
    (failing : ∀ address stop, fetch left address = .error stop →
      fetch right address = .error stop)
    (agreeing : ∀ address word,
      .instructionFetched address word ∈
          (Simulator.call left entry width ⟨first, buffer⟩).1.events →
        fetch right address = fetch left address) :
    Simulator.call right entry width ⟨second, buffer⟩ =
      Simulator.call left entry width ⟨first, buffer⟩ := by
  have runs : run right first.stepLimit.toNat (.enter entry buffer) =
      run left first.stepLimit.toNat (.enter entry buffer) := by
    apply runFor_congr failing
    intro address word member
    exact agreeing address word (mem_call_events member)
  unfold Simulator.call
  simp only [budget, runs]

end Congruence

end Machine

namespace Store

open Machine (Simulator fetch)

/-- The word at the address is one of the code of the record. -/
def Record.HoldsWord (record : Record) (container : Container) (address : CodeAddress) : Prop :=
  container.base.value.toNat + record.codeOffset ≤ address.value.toNat ∧
    address.value.toNat + 2 ≤ container.base.value.toNat + record.finish

section Reading

open Flash.Image (Confined)

variable {container : Container} {before after : Image} {record : Record} {address : CodeAddress}

/-- Which addresses can be read depends on the extent of memory only. -/
theorem readByte_cases_of_confined {entry : Flash.Entry} (confined : Confined entry before after)
    (address : CodeAddress) :
    (∃ old new, before.readByte address = .ok old ∧ after.readByte address = .ok new) ∨
      ∃ cause, before.readByte address = .error cause ∧ after.readByte address = .error cause := by
  unfold Flash.Image.readByte
  rw [confined.indexOf_eq]
  cases indexed : before.indexOf address with
  | error cause => exact .inr ⟨cause, rfl, rfl⟩
  | ok index =>
      obtain ⟨-, inside, -⟩ := Flash.Image.indexOf_eq_ok indexed
      have insideAfter : index < after.memory.size := by
        rw [confined.size]
        exact inside
      refine .inl ⟨before.memory[index], after.memory[index], ?_, ?_⟩
      · simp [bind, Except.bind, inside]
      · simp [bind, Except.bind, insideAfter]

theorem readWord_eq_error_of_confined {entry : Flash.Entry} {stop : Stop Flash.Error}
    (confined : Confined entry before after)
    (failed : before.archive.readWord address = .error stop) :
    after.archive.readWord address = .error stop := by
  unfold Archive.readWord Flash.Image.archive at failed ⊢
  rcases readByte_cases_of_confined confined address with
    ⟨old, new, oldLow, newLow⟩ | ⟨cause, oldLow, newLow⟩
  · simp only [oldLow, newLow, Outcome.ofExcept_ok, Outcome.bind_ok] at failed ⊢
    cases summed : (sum32 address.value 1 : Outcome Flash.Error UInt32) with
    | error halt =>
        rw [summed] at failed
        exact failed
    | ok sum =>
        rcases readByte_cases_of_confined confined ⟨sum⟩ with
          ⟨old, new, oldHigh, newHigh⟩ | ⟨cause, oldHigh, newHigh⟩
        · simp only [summed, Outcome.bind_ok, oldHigh, Outcome.ofExcept_ok] at failed
          contradiction
        · simp only [summed, Outcome.bind_ok, oldHigh, newHigh] at failed ⊢
          exact failed
  · simp only [oldLow, newLow] at failed ⊢
    exact failed

theorem fetch_eq_error_of_confined {entry : Flash.Entry} (confined : Confined entry before after)
    {address : InstructionAddress} {stop : Stop Machine.Error}
    (failed : fetch before.archive address = .error stop) :
    fetch after.archive address = .error stop := by
  unfold fetch at failed ⊢
  cases read : before.archive.readWord address.toCode with
  | ok word =>
      rw [read] at failed
      contradiction
  | error cause =>
      rw [read] at failed
      rw [readWord_eq_error_of_confined confined read]
      exact failed

/-- A record that is yielded is that of a capsule at its place. -/
theorem exists_spelled_of_yielded (mounted : before.Mounts container.index container.entry)
    (member : record ∈ yielded container before) :
    ∃ earlier capsule later,
      Spells (before.region container.entry) container.firstPlace (earlier ++ capsule :: later) ∧
        record.offset.value.toNat = container.firstPlace + totalSize earlier ∧
        record.header = capsule.header := by
  obtain ⟨capsules, spelled, yieldedEq⟩ := exists_yielded mounted
  rw [yieldedEq] at member
  obtain ⟨ahead, behind, listed⟩ := List.append_of_mem member
  obtain ⟨earlier, capsule, later, rfl, -, rfl⟩ := exists_split_of_recordsAt listed
  have shows := shows_region mounted.holds mounted.addressable
  exact ⟨earlier, capsule, later, spelled,
    toNat_toUInt16 (shows.finish_lt (spells_append.mp spelled).1), rfl⟩

theorem Spells.getElem?_eq {bytes : Bytes} {start index : Nat} {capsule : Capsule} {byte : UInt8}
    (spelled : Spells bytes start [capsule]) (present : capsule.encode[index]? = some byte) :
    bytes[start + index]? = some byte := by
  obtain ⟨rest, restEq⟩ := spelled
  rw [encodeAll_singleton] at restEq
  rw [← List.getElem?_drop, ← restEq,
    List.getElem?_append_left (List.getElem?_eq_some_iff.mp present).1, present]

/-- A word of a capsule is read at its place. -/
theorem readWord_of_spells {start index : Nat} {capsule : Capsule} {low high : UInt8}
    (mounted : before.Mounts container.index container.entry)
    (spelled : Spells (before.region container.entry) start [capsule])
    (lowAt : capsule.encode[index]? = some low) (highAt : capsule.encode[index + 1]? = some high) :
    before.archive.readWord ⟨container.base.value + (start + index).toUInt32⟩ =
      .ok (low.toUInt16 ||| (high.toUInt16 <<< 8)) := by
  have shows := shows_region mounted.holds mounted.addressable
  have highPlace := spelled.getElem?_eq highAt
  have inside := (List.getElem?_eq_some_iff.mp highPlace).1
  have next := shows.sum32_place (ε := Flash.Error) (start + index) 1 (by omega)
  unfold Archive.readWord
  rw [shows.byte _ low (spelled.getElem?_eq lowAt)]
  rw [show (1 : UInt32) = (1 : Nat).toUInt32 from rfl]
  simp only [next, Outcome.ofExcept_ok, Outcome.bind_ok]
  rw [← Nat.add_assoc] at highPlace
  rw [shows.byte _ high highPlace]
  rfl

/-- The words of the code of a capsule are fetched alike wherever the capsule
stands at the same place. -/
theorem fetch_of_spells {start : Nat} {capsule : Capsule} {address : InstructionAddress}
    (mounted : before.Mounts container.index container.entry)
    (mountedAfter : after.Mounts container.index container.entry)
    (spelled : Spells (before.region container.entry) start [capsule])
    (spelledAfter : Spells (after.region container.entry) start [capsule])
    (startLe : container.base.value.toNat + start ≤ address.toCode.value.toNat)
    (finishLe : address.toCode.value.toNat + 2 ≤
      container.base.value.toNat + (start + capsule.size)) :
    fetch after.archive address = fetch before.archive address := by
  obtain ⟨index, placeEq⟩ := Nat.exists_eq_add_of_le startLe
  have size := capsule.length_encode
  have fits := (shows_region mounted.holds mounted.addressable).addressable
  have standing := spelled.capsule_fits
  rw [Flash.Image.length_region mounted.holds] at standing
  have capacityEq : container.capacity = container.entry.size.toNat := rfl
  have addressEq : address.toCode = ⟨container.base.value + (start + index).toUInt32⟩ := by
    have valueEq : address.toCode.value = container.base.value + (start + index).toUInt32 := by
      apply UInt32.toNat.inj
      rw [toNat_add_place _ _ (by omega)]
      omega
    rw [← valueEq]
  have lowAt := List.getElem?_eq_getElem (show index < capsule.encode.length by omega)
  have highAt := List.getElem?_eq_getElem (show index + 1 < capsule.encode.length by omega)
  unfold fetch
  rw [addressEq, readWord_of_spells mounted spelled lowAt highAt,
    readWord_of_spells mountedAfter spelledAfter lowAt highAt]

end Reading

section Invoking

variable {archive : Archive} {container : Container} {offset : Offset} {address : CodeAddress}
  {width : ReturnWidth} {simulator : Simulator} {buffer : Bytes}

theorem invoke_eq (wide : width.size ≤ buffer.length)
    (inside : offset.value.toNat + headerSize ≤ container.capacity)
    (located : (container.codeAddress offset : Outcome Error CodeAddress) = .ok address) :
    invoke archive container offset width ⟨simulator, buffer⟩ =
      (⟨(Simulator.call archive address.toInstruction width ⟨simulator, buffer⟩).1.outcome.mapCause
            .execution,
          .invocationStarted offset address address.toInstruction width ::
            (Simulator.call archive address.toInstruction width ⟨simulator, buffer⟩).1.events⟩,
        (Simulator.call archive address.toInstruction width ⟨simulator, buffer⟩).2) := by
  unfold invoke
  simp only [bind, Operation.andThen, Operation.device, if_neg (Nat.not_lt.mpr wide),
    if_neg (Nat.not_lt.mpr inside), Operation.ofOutcome, Operation.ofLogged, Logged.ofOutcome,
    located, Operation.report, Logged.report, Operation.mapCause, Logged.mapCause, List.nil_append,
    List.singleton_append]

theorem invoke_of_narrow (narrow : buffer.length < width.size) :
    invoke archive container offset width ⟨simulator, buffer⟩ =
      (.refuse (.returnBufferTooSmall width.size buffer.length), ⟨simulator, buffer⟩) := by
  unfold invoke
  simp only [bind, Operation.andThen, Operation.device, if_pos narrow]
  rfl

/-- An invocation ends in the same way on another archive and another processor,
if the words it fetches are the same there and the budget is. -/
theorem invoke_congr {left right : Archive} {first second : Simulator}
    (wide : width.size ≤ buffer.length)
    (inside : offset.value.toNat + headerSize ≤ container.capacity)
    (located : (container.codeAddress offset : Outcome Error CodeAddress) = .ok address)
    (budget : second.stepLimit = first.stepLimit)
    (failing : ∀ address stop, fetch left address = .error stop →
      fetch right address = .error stop)
    (agreeing : ∀ address word,
      .instructionFetched address word ∈
          (invoke left container offset width ⟨first, buffer⟩).1.events →
        fetch right address = fetch left address) :
    invoke right container offset width ⟨second, buffer⟩ =
      invoke left container offset width ⟨first, buffer⟩ := by
  rw [invoke_eq wide inside located] at agreeing ⊢
  rw [invoke_eq wide inside located, Machine.call_congr budget failing]
  intro address word member
  exact agreeing address word (List.mem_cons_of_mem _ member)

end Invoking

section Appending

variable {store last : Store Image} {record : Record}

theorem codeOffset_le_of_yielded {container : Container} {image : Image}
    (mounted : image.Mounts container.index container.entry)
    (member : record ∈ yielded container image) : record.codeOffset ≤ container.capacity := by
  obtain ⟨earlier, capsule, later, spelled, offsetEq, -⟩ :=
    exists_spelled_of_yielded mounted member
  have fits := (spells_cons.mp (spells_append.mp spelled).2).1.capsule_fits
  rw [Flash.Image.length_region mounted.holds] at fits
  have covered := capsule.headerSize_le_size
  unfold Record.codeOffset Container.capacity
  omega

/-- Appends leave the words of a record. -/
theorem fetch_of_runs (mounted : store.device.Mounts store.container.index store.container.entry)
    (member : record ∈ yielded store.container store.device)
    (ran : Runs Action.Appends store last) {address : InstructionAddress}
    (held : record.HoldsWord store.container address.toCode) :
    fetch last.archive address = fetch store.archive address := by
  obtain ⟨earlier, capsule, later, spelled, offsetEq, headerEq⟩ :=
    exists_spelled_of_yielded mounted member
  obtain ⟨lastMounted, lastSpelled⟩ := spells_of_runs ran mounted spelled
  obtain ⟨startLe, finishLe⟩ := held
  unfold Record.codeOffset at startLe
  unfold Record.finish at finishLe
  rw [offsetEq] at startLe finishLe
  rw [headerEq] at finishLe
  apply fetch_of_spells mounted lastMounted (spells_cons.mp (spells_append.mp spelled).2).1
    (spells_cons.mp (spells_append.mp lastSpelled).2).1
  · omega
  · exact finishLe

/-- Appends do not disturb the capsules that are there. If an invocation of a
record takes every word from the code of the record, then after any run of
appends, on any processor with the same budget, an invocation of the record
reports, answers and delivers the same. It also leaves the same processor, but
for a return buffer that is too short: then nothing is called, and the processor
stays as it was. -/
theorem appends_do_not_disturb_invocations (store last : Store Image) (record : Record)
    (width : ReturnWidth) (buffer : Bytes) (first second : Simulator)
    (valid : store.device.validate = .ok ())
    (addressable : store.device.memoryEnd < UInt32.size)
    (located : (Container.locate store.archive store.config.containerType).outcome =
      .ok store.container)
    (member : record ∈ yielded store.container store.device)
    (inside : ∀ address word,
      .instructionFetched address word ∈
          (store.invokeWidth record.offset width ⟨first, buffer⟩).1.events →
        record.HoldsWord store.container address.toCode)
    (ran : Runs Action.Appends store last) (budget : second.stepLimit = first.stepLimit) :
    (last.invokeWidth record.offset width ⟨second, buffer⟩).1 =
        (store.invokeWidth record.offset width ⟨first, buffer⟩).1 ∧
      (last.invokeWidth record.offset width ⟨second, buffer⟩).2.buffer =
        (store.invokeWidth record.offset width ⟨first, buffer⟩).2.buffer ∧
      (last.invokeWidth record.offset width ⟨second, buffer⟩).2.simulator =
        if buffer.length < width.size then second
        else (store.invokeWidth record.offset width ⟨first, buffer⟩).2.simulator := by
  have mounted : store.device.Mounts store.container.index store.container.entry :=
    mounts_of_locate valid addressable located
  obtain ⟨containerEq, -, confined⟩ := confined_of_runs ran mounted.reaches
  unfold invokeWidth at inside ⊢
  rw [containerEq]
  by_cases narrow : buffer.length < width.size
  · rw [invoke_of_narrow narrow, invoke_of_narrow narrow, if_pos narrow]
    exact ⟨rfl, rfl, rfl⟩
  · have covered := codeOffset_le_of_yielded mounted member
    have finishes := mounted.reaches.finishes
    have codeAddress : (store.container.codeAddress record.offset : Outcome Error CodeAddress) =
        .ok ⟨store.container.base.value + record.codeOffset.toUInt32⟩ := by
      apply addressOf_place
      unfold Container.capacity at covered
      unfold Container.base
      show _ + record.codeOffset < _
      omega
    have same : invoke last.archive store.container record.offset width ⟨second, buffer⟩ =
        invoke store.archive store.container record.offset width ⟨first, buffer⟩ := by
      apply invoke_congr (Nat.not_lt.mp narrow) covered codeAddress budget
      · intro address stop failed
        exact fetch_eq_error_of_confined confined failed
      · intro address word fetched
        exact fetch_of_runs mounted member ran (inside address word fetched)
    rw [same, if_neg narrow]
    exact ⟨rfl, rfl, rfl⟩

end Appending

/-- The store on `roomyImage` itself, whose capsule returns at once. -/
def roomyImageStore : Store Image := ⟨roomyImage, .standard, roomyContainer, .initial⟩

theorem yielded_roomyImage :
    yielded roomyContainer roomyImage = [⟨⟨0⟩, ⟨8, ⟨1, 2, 3, 4⟩⟩⟩] := by decide +kernel

/-- A processor with the standard budget, as three instructions left it. -/
def usedSimulator : Simulator := ⟨Vector.replicate 32 7, Simulator.standardStepLimit, 3⟩

/-- One append is stored, and there is no room for the next. -/
theorem appends_do_not_disturb_a_return :
    ∃ last, Runs Action.Appends roomyImageStore last ∧
      yielded roomyContainer last.device =
        [⟨⟨0⟩, ⟨8, ⟨1, 2, 3, 4⟩⟩⟩, ⟨⟨8⟩, ⟨8, ⟨5, 6, 7, 8⟩⟩⟩] ∧
      (last.invokeWidth ⟨0⟩ .byte ⟨usedSimulator, [9]⟩).1.events =
        [.invocationStarted ⟨0⟩ ⟨0x306⟩ ⟨0x183⟩ .byte, .callStarted ⟨0x183⟩ .byte,
          .instructionFetched ⟨0x183⟩ 0x9508, .callReturned 1] ∧
      (last.invokeWidth ⟨0⟩ .byte ⟨usedSimulator, [9]⟩).2.buffer =
        (roomyImageStore.invokeWidth ⟨0⟩ .byte ⟨roomyImageStore.simulator, [9]⟩).2.buffer ∧
      (last.invokeWidth ⟨0⟩ .byte ⟨usedSimulator, [9]⟩).2.simulator =
        (roomyImageStore.invokeWidth ⟨0⟩ .byte
          ⟨roomyImageStore.simulator, [9]⟩).2.simulator := by
  have ran : Runs Action.Appends roomyImageStore
      ((Action.perform (.appendCode ⟨9, 9, 9, 9⟩ [0, 0])).result
        (secondAppend.result roomyImageStore).2).2 :=
    .act secondAppend (rfl : secondAppend.Appends) (.act (.perform (.appendCode _ _)) rfl (.done _))
  have events : (roomyImageStore.invokeWidth ⟨0⟩ .byte
      ⟨roomyImageStore.simulator, [9]⟩).1.events =
        [.invocationStarted ⟨0⟩ ⟨0x306⟩ ⟨0x183⟩ .byte, .callStarted ⟨0x183⟩ .byte,
          .instructionFetched ⟨0x183⟩ 0x9508, .callReturned 1] := by decide +kernel
  obtain ⟨reported, delivered, left⟩ := appends_do_not_disturb_invocations roomyImageStore _
    ⟨⟨0⟩, ⟨8, ⟨1, 2, 3, 4⟩⟩⟩ .byte [9] roomyImageStore.simulator usedSimulator (by decide)
    (by decide) rfl (by
      show _ ∈ yielded roomyContainer roomyImage
      rw [yielded_roomyImage]
      exact List.mem_singleton.mpr rfl) (by
      intro address word member
      rw [events] at member
      simp at member
      rw [member.1]
      unfold Record.HoldsWord
      decide) ran rfl
  refine ⟨_, ran, by decide +kernel, ?_, delivered, ?_⟩
  · rw [reported, events]
  · rw [left, if_neg (by decide)]

/-- An invocation that is refused for its return buffer calls nothing. So the
processor of an earlier invocation still has the count of that one, where a new
processor has none. -/
theorem short_buffer_keeps_the_last_count :
    roomyImage.validate = .ok () ∧
      (⟨⟨0⟩, ⟨8, ⟨1, 2, 3, 4⟩⟩⟩ : Record) ∈ yielded roomyContainer roomyImage ∧
      (roomyImageStore.invokeWidth ⟨0⟩ .byte ⟨roomyImageStore.simulator, []⟩).1.events = [] ∧
      (roomyImageStore.invokeWidth ⟨0⟩ .byte
        ⟨roomyImageStore.simulator, []⟩).2.simulator.steps = 0 ∧
      (roomyImageStore.invokeWidth ⟨0⟩ .byte
        ⟨(roomyImageStore.invokeWidth ⟨0⟩ .byte
          ⟨roomyImageStore.simulator, [9]⟩).2.simulator, []⟩).2.simulator.steps = 1 := by
  refine ⟨rfl, ?_, by decide +kernel, by decide +kernel, by decide +kernel⟩
  rw [yielded_roomyImage]
  exact List.mem_singleton.mpr rfl

end Store

end CodeCapsules
