import CodeCapsules.Proofs.Placement

/-!
Contract: nothing that only reads a container halts, if the end of the container
is an address.

Owns:
- reads of words and byte strings, with the sums of addresses behind them;
- one step of the walk and the whole walk, on any archive;
- lookups, listings and counts;
- calls of stored code, for any caller and any budget.

Main statement: on any archive, a container whose end is an address is walked
and called without a halt. Whatever stands in it, the answer is a value or a
refusal.

Does not own: writing.
-/

namespace CodeCapsules

open Flash (Archive)

theorem answered_sum32 {ε : Type} {left right : UInt32} :
    (sum32 left right : Outcome ε UInt32).Answered ↔ left.toNat + right.toNat < UInt32.size := by
  unfold sum32
  split
  · rename_i fits
    exact ⟨fun _ => fits, fun _ => Outcome.answered_ok _⟩
  · rename_i overflows
    exact ⟨fun answered => absurd answered (Outcome.not_answered_halt _),
      fun fits => absurd fits overflows⟩

theorem answered_readWord (archive : Archive) {address : CodeAddress}
    (fits : address.value.toNat + 1 < UInt32.size) : (archive.readWord address).Answered := by
  unfold Archive.readWord
  apply Outcome.Answered.bind (Outcome.answered_ofExcept _)
  intro low _
  apply Outcome.Answered.bind (answered_sum32.mpr fits)
  intro sum _
  apply Outcome.Answered.bind (Outcome.answered_ofExcept _)
  intro high _
  exact Outcome.answered_ok _

theorem answered_readFrom (archive : Archive) {address : CodeAddress} {index count : Nat}
    (fits : address.value.toNat + index + count ≤ UInt32.size) :
    (archive.readFrom address index count).2.Answered := by
  induction count generalizing index with
  | zero => exact Outcome.answered_ok ()
  | succ count inductionHypothesis =>
      have indexEq : index.toUInt32.toNat = index := toNat_toUInt32 (by omega)
      have first : (sum32 address.value index.toUInt32 >>= fun sum =>
          Outcome.ofExcept (archive.readByte ⟨sum⟩) : Outcome Flash.Error UInt8).Answered := by
        apply Outcome.Answered.bind (answered_sum32.mpr (by omega))
        intro sum _
        exact Outcome.answered_ofExcept _
      rw [Store.readFrom_succ]
      split
      · rename_i stop failed
        rw [failed] at first
        exact first.error
      · exact inductionHypothesis (by omega)

theorem length_readFrom {archive : Archive} {address : CodeAddress} {index count : Nat}
    (read : (archive.readFrom address index count).2 = .ok ()) :
    (archive.readFrom address index count).1.length = count := by
  induction count generalizing index with
  | zero => rfl
  | succ count inductionHypothesis =>
      rw [Store.readFrom_succ] at read ⊢
      split at read
      · contradiction
      · rw [List.length_cons, inductionHypothesis read]

namespace Store

section Walking

variable {archive : Archive} {scan : Scan}

theorem answered_readLength
    (fits : scan.container.base.value.toNat + scan.position + 1 < UInt32.size) :
    (scan.readLength archive).Answered := by
  unfold Scan.readLength
  rw [addressOf_place (by omega), Outcome.bind_ok, Outcome.answered_mapCause]
  apply answered_readWord
  rw [toNat_add_place _ _ (by omega)]
  exact fits

/-- The hash is read as four bytes, so that taking it apart cannot fail. -/
theorem answered_readHash
    (fits : scan.container.base.value.toNat + scan.position + headerSize < UInt32.size) :
    (scan.readHash archive).Answered := by
  unfold headerSize at fits
  unfold Scan.readHash
  rw [addressOf_place (by omega), Outcome.bind_ok]
  have start := toNat_add_place scan.container.base.value (scan.position + 2) (by omega)
  apply Outcome.Answered.bind
  · rw [Outcome.answered_mapCause]
    unfold Archive.readBytes
    simp only [Outcome.answered_map]
    exact answered_readFrom archive (by rw [start]; unfold Hash.size; omega)
  · intro bytes read
    have four : bytes.length = Hash.size := by
      have bytesRead := Outcome.mapCause_eq_ok.mp read
      unfold Archive.readBytes at bytesRead
      cases ended : (archive.readFrom ⟨scan.container.base.value + (scan.position + 2).toUInt32⟩ 0
          Hash.size).2 with
      | error stop =>
          simp only [ended] at bytesRead
          contradiction
      | ok done =>
          simp only [ended] at bytesRead
          rw [← Except.ok.inj bytesRead]
          exact length_readFrom ended
    obtain ⟨first, second, third, fourth, rfl⟩ := List.length_eq_four.mp four
    exact Outcome.answered_ok _

theorem next_container (scan : Scan) (archive : Archive) :
    (scan.next archive).2.container = scan.container := by
  unfold Scan.next
  simp only
  repeat' split
  all_goals rfl

/-- What a step of the walk yields is a record or a refusal. -/
theorem answered_next {item : Item} {after : Scan}
    (addressable : scan.container.base.value.toNat + scan.container.capacity < UInt32.size)
    (stepped : scan.next archive = (some item, after)) : item.Answered := by
  unfold Scan.next at stepped
  simp only [terminatorSize] at stepped
  split at stepped
  · simp at stepped
  · rename_i goesOn
    have lengthAnswered : (scan.readLength archive).Answered := answered_readLength (by omega)
    split at stepped
    · rename_i stop failed
      rw [failed] at lengthAnswered
      rw [← Option.some.inj (Prod.mk.inj stepped).1]
      exact lengthAnswered.error
    · rename_i length read
      split at stepped
      · simp at stepped
      · split at stepped
        · rw [← Option.some.inj (Prod.mk.inj stepped).1]
          exact Outcome.answered_refuse _
        · split at stepped
          · rw [← Option.some.inj (Prod.mk.inj stepped).1]
            exact Outcome.answered_refuse _
          · have hashAnswered : (scan.readHash archive).Answered := answered_readHash (by omega)
            split at stepped
            · rename_i stop failed
              rw [failed] at hashAnswered
              rw [← Option.some.inj (Prod.mk.inj stepped).1]
              exact hashAnswered.error
            · rw [← Option.some.inj (Prod.mk.inj stepped).1]
              exact Outcome.answered_ok _

/-- The whole walk yields records and refusals. -/
theorem answered_collect
    (addressable : scan.container.base.value.toNat + scan.container.capacity < UInt32.size) :
    ∀ item ∈ (scan.collect archive).1, item.Answered := by
  fun_induction Scan.collect scan archive with
  | case1 scan after stepped => simp
  | case2 scan item after stepped items last collected inductionHypothesis =>
      have containerEq : after.container = scan.container := by
        have kept := next_container scan archive
        rw [stepped] at kept
        exact kept
      have behind := inductionHypothesis (by rw [containerEq]; exact addressable)
      rw [collected] at behind
      exact List.forall_mem_cons.mpr ⟨answered_next addressable stepped, behind⟩

end Walking

section Answers

variable (archive : Archive) {container : Container}

theorem answered_searched {length : UInt16} {hash : Hash} {last : Offset} {items : List Item}
    (answered : ∀ item ∈ items, item.Answered) : (searched length hash last items).Answered := by
  induction items with
  | nil => exact Outcome.answered_ok _
  | cons item rest inductionHypothesis =>
      obtain ⟨itemAnswered, restAnswered⟩ := List.forall_mem_cons.mp answered
      cases item with
      | error stop => exact itemAnswered.error
      | ok record =>
          unfold searched
          split
          · exact Outcome.answered_ok _
          · exact inductionHypothesis restAnswered

theorem answered_recordsOf {items : List Item} (answered : ∀ item ∈ items, item.Answered) :
    (recordsOf items).outcome.Answered := by
  induction items with
  | nil => exact Outcome.answered_ok _
  | cons item rest inductionHypothesis =>
      obtain ⟨itemAnswered, restAnswered⟩ := List.forall_mem_cons.mp answered
      unfold recordsOf
      rw [Logged.outcome_bind]
      apply Outcome.Answered.bind itemAnswered
      intro record _
      rw [Logged.outcome_bind]
      apply Outcome.Answered.bind (inductionHypothesis restAnswered)
      intro records _
      exact Outcome.answered_ok _

variable (addressable : container.base.value.toNat + container.capacity < UInt32.size)

include addressable

theorem answered_find (length : UInt16) (hash : Hash) :
    (find archive container length hash).outcome.Answered := by
  rw [find_outcome]
  exact answered_searched (answered_collect addressable)

theorem answered_records : (records archive container).outcome.Answered :=
  answered_recordsOf (answered_collect addressable)

theorem answered_usedBytes : (usedBytes archive container).outcome.Answered := by
  rw [usedBytes_outcome, Outcome.answered_map]
  exact answered_records archive addressable

theorem answered_freeBytes : (freeBytes archive container).outcome.Answered := by
  unfold freeBytes
  rw [Logged.outcome_bind]
  apply Outcome.Answered.bind (answered_usedBytes archive addressable)
  intro used _
  exact Outcome.answered_ok _

end Answers

end Store

/-! ## Calls of stored code -/

namespace Machine

/-- An instruction word lies below 128 KiB, far from the end of the addresses. -/
theorem answered_fetch (program : Archive) (address : InstructionAddress) :
    (fetch program address).Answered := by
  unfold fetch
  rw [Outcome.answered_mapCause]
  apply answered_readWord
  have valueLt : address.value.toNat < 2 ^ 16 := address.value.toNat_lt
  have sizeEq : UInt32.size = 2 ^ 32 := rfl
  show (address.value.toUInt32 <<< 1).toNat + 1 < _
  rw [UInt32.toNat_shiftLeft, UInt16.toNat_toUInt32, show (1 : UInt32).toNat % 32 = 1 from rfl,
    Nat.shiftLeft_eq]
  omega

theorem answered_runFor (program : Archive) (limit budget : Nat) (state : State) (steps : Nat)
    (events : List Event) : (runFor program limit budget state steps events).outcome.Answered := by
  induction budget generalizing state steps events with
  | zero => exact Outcome.answered_refuse _
  | succ budget inductionHypothesis =>
      have fetched := answered_fetch program state.next
      unfold runFor
      split
      · rename_i stop failed
        rw [failed] at fetched
        exact fetched.error
      · simp only
        split
        · exact Outcome.answered_refuse _
        · split
          · exact Outcome.answered_refuse _
          · exact Outcome.answered_ok _
          · exact inductionHypothesis _ _ _

theorem answered_call (program : Archive) (entry : InstructionAddress) (width : ReturnWidth)
    (caller : Caller) : ((Simulator.call program entry width).result caller).1.Answered := by
  have ran := answered_runFor program caller.simulator.stepLimit.toNat
    caller.simulator.stepLimit.toNat (.enter entry caller.buffer) 0 []
  unfold Operation.result Simulator.call run
  simp only
  split
  · rename_i stop failed
    rw [failed] at ran
    exact ran
  · split
    · exact Outcome.answered_refuse _
    · exact Outcome.answered_ok _

end Machine

theorem Store.answered_invoke {archive : Archive} {container : Container}
    (addressable : container.base.value.toNat + container.capacity < UInt32.size)
    (offset : Offset) (width : ReturnWidth) (caller : Machine.Caller) :
    ((invoke archive container offset width).result caller).1.Answered := by
  obtain ⟨simulator, buffer⟩ := caller
  by_cases wide : width.size ≤ buffer.length
  · by_cases inside : offset.value.toNat + headerSize ≤ container.capacity
    · have located : (container.codeAddress offset : Outcome Error CodeAddress) =
          .ok ⟨container.base.value + (offset.value.toNat + headerSize).toUInt32⟩ :=
        addressOf_place (by omega)
      rw [result_invoke wide inside located, Outcome.answered_mapCause]
      exact Machine.answered_call _ _ _ _
    · unfold invoke
      rw [Operation.result_bind, Operation.result_device, Operation.continueWith_ok,
        if_neg (Nat.not_lt.mpr wide), if_pos (Nat.not_le.mp inside), Operation.result_refuse]
      exact Outcome.answered_refuse _
  · unfold invoke
    rw [Operation.result_bind, Operation.result_device, Operation.continueWith_ok,
      if_pos (Nat.not_le.mp wide), Operation.result_refuse]
    exact Outcome.answered_refuse _

end CodeCapsules
