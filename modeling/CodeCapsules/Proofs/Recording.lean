import CodeCapsules.Proofs.Writing

/-!
Contract: which commands an append and an erase give to their device.

Owns:
- `Recorder`, any device with a record of the commands it was given and of how
  each of them ended;
- `Finalized`, the records in which every session that was opened is closed
  once, behind all its writes;
- the record that a write session, an append and an erase leave;
- `accepted`, the byte strings that a device took while an operation ran on it.

Main statement: whatever a device answers, a session that it opened is closed by
exactly one command, which is the last; no write follows one that failed; and
success means that all commands succeeded.
-/

namespace CodeCapsules.Flash

inductive Request where
  | openFile (index : Nat) (offset : UInt32)
  | writeBytes (chunk : Bytes)
  | closeFile
deriving DecidableEq, Repr

/-- A request, and how the device answered it. -/
structure Exchange where
  request : Request
  answer : Outcome Error Unit
deriving DecidableEq, Repr

/-- A device, and all requests to it in their order. -/
structure Recorder (δ : Type) where
  device : δ
  exchanges : List Exchange

namespace Recorder

variable {δ : Type}

def recording (request : Request) (command : Command δ) : Command (Recorder δ) := fun recorder =>
  let (answer, device) := command recorder.device
  (answer, ⟨device, recorder.exchanges ++ [⟨request, answer.outcome⟩]⟩)

instance [Device δ] : Device (Recorder δ) where
  archive recorder := Device.archive recorder.device
  openFile index offset := recording (.openFile index offset) (Device.openFile index offset)
  writeBytes chunk := recording (.writeBytes chunk) (Device.writeBytes chunk)
  closeFile := recording .closeFile Device.closeFile

theorem result_recording (request : Request) (command : Command δ) (device : δ)
    (before : List Exchange) :
    (recording request command).result ⟨device, before⟩ =
      ((command.result device).1, ⟨(command.result device).2,
        before ++ [⟨request, (command.result device).1⟩]⟩) := rfl

end Recorder

def Exchange.written (chunk : Bytes) : Exchange := ⟨.writeBytes chunk, .ok ()⟩

def Exchange.failed (failure : Bytes × Stop Error) : Exchange :=
  ⟨.writeBytes failure.1, .error failure.2⟩

/-- The byte string that an exchange has put into the file. -/
def Exchange.accepted : Exchange → Option Bytes
  | ⟨.writeBytes chunk, .ok _⟩ => some chunk
  | _ => none

/-- The byte strings that a device accepts while an operation runs on it. -/
def accepted {ε α δ : Type} [Device δ] (operation : ∀ {δ : Type} [Device δ], Operation δ ε α)
    (device : δ) : List Bytes :=
  (operation.result (⟨device, []⟩ : Recorder δ)).2.exchanges.filterMap Exchange.accepted

/-- The requests of an operation on the file `index`: none, one that could not
open it, or a session. A session is one that opened the file, writes of which
only the last may have failed, and one that closed it. -/
inductive Finalized (index : Nat) : List Exchange → Prop where
  | silent : Finalized index []
  | refused (offset : UInt32) (stop : Stop Error) :
      Finalized index [⟨.openFile index offset, .error stop⟩]
  | closed (offset : UInt32) (written : List Bytes) (failed : Option (Bytes × Stop Error))
      (closing : Outcome Error Unit) :
      Finalized index (⟨.openFile index offset, .ok ()⟩ ::
        (written.map .written ++ failed.toList.map .failed ++ [⟨.closeFile, closing⟩]))

/-- All requests of a session succeeded exactly if no write failed and the file
was closed. -/
theorem session_succeeds_iff {index : Nat} {offset : UInt32} {written : List Bytes}
    {failed : Option (Bytes × Stop Error)} {closing : Outcome Error Unit} :
    (∀ exchange ∈ (⟨.openFile index offset, .ok ()⟩ : Exchange) ::
        (written.map .written ++ failed.toList.map .failed ++ [⟨.closeFile, closing⟩]),
      exchange.answer = .ok ()) ↔ failed = none ∧ closing = .ok () := by
  simp only [List.forall_mem_cons, List.forall_mem_append, List.forall_mem_map]
  cases failed with
  | none => simp [Exchange.written]
  | some failure => simp [Exchange.failed]

/-- What a session has put into its file are the writes before the one that
failed. -/
theorem filterMap_accepted_session {index : Nat} {offset : UInt32} {written : List Bytes}
    {failed : Option (Bytes × Stop Error)} {closing : Outcome Error Unit} :
    ((⟨.openFile index offset, .ok ()⟩ : Exchange) ::
        (written.map .written ++ failed.toList.map .failed ++
          [⟨.closeFile, closing⟩])).filterMap Exchange.accepted = written := by
  have refused : (failed.toList.map Exchange.failed).filterMap Exchange.accepted = [] := by
    cases failed with
    | none => rfl
    | some failure => rfl
  have taken : (written.map Exchange.written).filterMap Exchange.accepted = written := by
    rw [List.filterMap_map]
    exact List.filterMap_some
  rw [List.filterMap_cons_none rfl, List.filterMap_append, List.filterMap_append, taken, refused,
    List.append_nil, List.filterMap_cons_none rfl]
  exact List.append_nil _

namespace WriteSession

variable {δ : Type} [Device δ]

/-- Writing stops at the first write that fails. -/
theorem writeAll_recorded (session : WriteSession) (chunks : List Bytes) (device : δ)
    (before : List Exchange) :
    ∃ failed : Option (Bytes × Stop Error),
      (session.writeAll chunks).result (⟨device, before⟩ : Recorder δ) =
        (((session.writeAll chunks).result device).1,
          ⟨((session.writeAll chunks).result device).2,
            before ++ ((reachedFrom chunks device).map .written ++
              failed.toList.map .failed)⟩) ∧
      (((session.writeAll chunks).result device).1.toBool = failed.isNone) := by
  induction chunks generalizing session device before with
  | nil => exact ⟨none, by simp [writeAll, reachedFrom], rfl⟩
  | cons chunk rest inductionHypothesis =>
      have passed := Recorder.result_recording (.writeBytes chunk) (Device.writeBytes chunk)
        device before
      rw [result_writeAll_cons, result_writeAll_cons, reachedFrom,
        show (Device.writeBytes chunk : Command (Recorder δ)).result ⟨device, before⟩ = _
          from passed]
      generalize (Device.writeBytes chunk : Command δ).result device = answered
      obtain ⟨answer, after⟩ := answered
      cases answer with
      | error stop => exact ⟨some (chunk, stop), rfl, rfl⟩
      | ok done =>
          obtain ⟨failed, ran, ended⟩ := inductionHypothesis
            { session with written := session.written + chunk.length } after
            (before ++ [.written chunk])
          refine ⟨failed, ran.trans ?_, ended⟩
          simp

/-- The requests of a session: one that could not open the file, or one that
opened it, the writes that got through, at most one that failed, and the
close. -/
theorem run_recorded (index : Nat) (offset : UInt32) (chunks : List Bytes) (device : δ) :
    ∃ exchanges, (run index offset chunks).result (⟨device, []⟩ : Recorder δ) =
        (((run index offset chunks).result device).1,
          ⟨((run index offset chunks).result device).2, exchanges⟩) ∧
      ((∃ stop, exchanges = [⟨.openFile index offset, .error stop⟩] ∧
          ((run index offset chunks).result device).1 = .error stop ∧
          reached index offset chunks device = []) ∨
        ∃ (failed : Option (Bytes × Stop Error)) (closing : Outcome Error Unit),
          exchanges = ⟨.openFile index offset, .ok ()⟩ ::
            ((reached index offset chunks device).map .written ++ failed.toList.map .failed ++
              [⟨.closeFile, closing⟩]) ∧
          (((run index offset chunks).result device).1.toBool ↔
            failed = none ∧ closing = .ok ())) := by
  have passed : (Device.openFile index offset : Command (Recorder δ)).result ⟨device, []⟩ = _ :=
    Recorder.result_recording (.openFile index offset) (Device.openFile index offset) device []
  cases opened : (Device.openFile index offset : Command δ).result device with
  | mk answer after =>
      rw [opened] at passed
      cases answer with
      | error stop =>
          have refused := congrArg Prod.fst opened
          rw [result_run_of_refused refused, result_run_of_refused (congrArg Prod.fst passed),
            opened, passed]
          exact ⟨_, rfl, .inl ⟨stop, rfl, rfl, reached_of_refused refused⟩⟩
      | ok done =>
          obtain ⟨failed, ran, ended⟩ := writeAll_recorded (⟨index, 0⟩ : WriteSession) chunks after
            [⟨.openFile index offset, .ok ()⟩]
          have through : reached index offset chunks device = reachedFrom chunks after := by
            unfold reached
            rw [opened]
          rw [result_run_of_open opened, result_run_of_open passed, List.nil_append, ran, through]
          generalize ((⟨index, 0⟩ : WriteSession).writeAll chunks).result after = finished
            at ended ⊢
          obtain ⟨outcome, left⟩ := finished
          have closing : (Device.closeFile : Command (Recorder δ)).result
              ⟨left, [⟨.openFile index offset, .ok ()⟩] ++
                ((reachedFrom chunks after).map .written ++ failed.toList.map .failed)⟩ = _ :=
            Recorder.result_recording .closeFile Device.closeFile left _
          cases outcome with
          | ok session =>
              have wrote : failed = none := Option.isNone_iff_eq_none.mp ended.symm
              simp only
              rw [closing]
              refine ⟨_, rfl, .inr ⟨failed, _, rfl, ?_⟩⟩
              cases ((Device.closeFile : Command δ).result left).1 with
              | ok closed => exact iff_of_true rfl ⟨wrote, rfl⟩
              | error stop => exact iff_of_false nofun fun both => nomatch both.2
          | error stop =>
              have stopped : failed ≠ none := by
                rintro rfl
                contradiction
              simp only
              rw [closing]
              exact ⟨_, rfl, .inr ⟨failed, _, rfl, iff_of_false nofun fun both => stopped both.1⟩⟩

/-- A recorder in front of the device sees just the byte strings that get
through to the file. -/
theorem accepted_run (index : Nat) (offset : UInt32) (chunks : List Bytes) (device : δ) :
    accepted (run index offset chunks) device = reached index offset chunks device := by
  obtain ⟨exchanges, recorded, shape⟩ := run_recorded index offset chunks device
  unfold accepted
  rw [recorded]
  rcases shape with ⟨stop, rfl, -, none⟩ | ⟨failed, closing, rfl, -⟩
  · rw [none]
    rfl
  · exact filterMap_accepted_session

end WriteSession

/-- What an operation on the file `index` comes to on a device (`plain`), and with
a recorder before that device (`recorded`): the recorder changes nothing, the
requests are those of at most one session, and if there are any, the operation
succeeds exactly if all of them did. -/
structure Orderly {δ ε α : Type} (index : Nat) (plain : Outcome ε α × δ)
    (recorded : Outcome ε α × Recorder δ) : Prop where
  sameOutcome : recorded.1 = plain.1
  sameDevice : recorded.2.device = plain.2
  finalized : Finalized index recorded.2.exchanges
  succeeds : recorded.2.exchanges ≠ [] →
    (plain.1.toBool ↔ ∀ exchange ∈ recorded.2.exchanges, exchange.answer = .ok ())

namespace Orderly

variable {δ ε ε' α β : Type} {index : Nat} {plain : Outcome ε α × δ}
  {recorded : Outcome ε α × Recorder δ}

theorem silent (index : Nat) (outcome : Outcome ε α) (device : δ) :
    Orderly index (outcome, device) (outcome, ⟨device, []⟩) :=
  ⟨rfl, rfl, .silent, fun requested => absurd rfl requested⟩

/-- Renaming what an operation answers changes nothing of its requests. -/
theorem rename (orderly : Orderly index plain recorded) (change : Outcome ε α → Outcome ε' β)
    (keeps : ∀ outcome, (change outcome).toBool = outcome.toBool) :
    Orderly index (change plain.1, plain.2) (change recorded.1, recorded.2) where
  sameOutcome := congrArg change orderly.sameOutcome
  sameDevice := orderly.sameDevice
  finalized := orderly.finalized
  succeeds requested := by
    rw [keeps]
    exact orderly.succeeds requested

end Orderly

/-- The operation is orderly on every device, and where its value says that it
changed something, there were requests. -/
def Finalizes {ε α : Type} (index : Nat)
    (operation : ∀ {δ : Type} [Device δ], Operation δ ε α) (changed : α → Prop) : Prop :=
  ∀ {δ : Type} [Device δ] (device : δ),
    Orderly index (operation.result device) (operation.result (⟨device, []⟩ : Recorder δ)) ∧
      ∀ value, (operation.result device).1 = .ok value → changed value →
        (operation.result (⟨device, []⟩ : Recorder δ)).2.exchanges ≠ []

/-- A session is closed once, however it goes. -/
theorem WriteSession.run_finalizes (index : Nat) (offset : UInt32) (chunks : List Bytes) :
    Finalizes index (run index offset chunks) fun _ => True := by
  intro δ _ device
  obtain ⟨exchanges, recorded, shape⟩ := run_recorded index offset chunks device
  rw [recorded]
  rcases shape with ⟨stop, rfl, failed, -⟩ | ⟨failed, closing, rfl, succeeds⟩
  · refine ⟨⟨rfl, rfl, .refused offset stop, fun _ => ?_⟩, fun value answered => ?_⟩
    · show ((run index offset chunks).result device).1.toBool ↔ _
      rw [failed]
      simp [Except.toBool]
    · exact absurd (failed.symm.trans answered) nofun
  · exact ⟨⟨rfl, rfl, .closed offset _ failed closing,
      fun _ => succeeds.trans session_succeeds_iff.symm⟩, by simp⟩

end CodeCapsules.Flash

namespace CodeCapsules.Store

open Flash (Device Finalizes Recorder WriteSession accepted)

section Operations

variable (container : Container)

theorem appendAt_finalizes (header : Header) (code : Bytes) (offset : Offset) :
    Finalizes container.index (appendAt container header code offset) fun _ => True := by
  intro δ _ device
  rw [result_appendAt, result_appendAt]
  split
  · exact ⟨.silent _ _ _, nofun⟩
  · obtain ⟨orderly, requested⟩ := WriteSession.run_finalizes container.index
      offset.value.toUInt32
      (recordChunks header code (container.capacity - offset.value.toNat)) device
    refine ⟨orderly.rename
      (fun outcome => (outcome.mapCause Error.flash).map fun _ => (⟨offset, true⟩ : Appended))
      ?_, ?_⟩
    · intro outcome
      cases outcome with
      | ok done => rfl
      | error stop => rfl
    · intro value stored _
      generalize (WriteSession.run container.index offset.value.toUInt32
        (recordChunks header code (container.capacity - offset.value.toNat))).result device =
          session at requested stored
      obtain ⟨outcome, after⟩ := session
      cases outcome with
      | ok done => exact requested () rfl trivial
      | error stop => contradiction

/-- An append gives requests only to store its capsule. -/
theorem append_finalizes (header : Header) (code : Bytes) :
    Finalizes container.index (append container header code)
      fun appended => appended.stored = true := by
  intro δ _ device
  rw [result_append, result_append]
  cases header.validate with
  | error cause => exact ⟨.silent _ _ _, nofun⟩
  | ok done =>
      simp only
      split
      · exact ⟨.silent _ _ _, nofun⟩
      -- The recorder is read as the device behind it.
      · rw [show Device.archive (⟨device, []⟩ : Recorder δ) = Device.archive device from rfl]
        cases (find (Device.archive device) container header.length header.hash).outcome with
        | error stop => exact ⟨.silent _ _ _, nofun⟩
        | ok slot =>
            cases slot with
            | found offset =>
                refine ⟨.silent _ _ _, ?_⟩
                intro value answered stored
                rw [← Except.ok.inj answered] at stored
                contradiction
            | free offset =>
                obtain ⟨orderly, requested⟩ :=
                  appendAt_finalizes container header code offset device
                exact ⟨orderly, fun value answered _ => requested value answered trivial⟩

/-- An append either sends nothing, or it is one session, of which as much is
accepted as reaches the image. -/
theorem append_accepts {δ : Type} [Device δ] (header : Header) (code : Bytes) (device : δ) :
    (accepted (append container header code) device = [] ∧
        ((append container header code).result device).2 = device) ∨
      ∃ offset, header.validate = .ok () ∧
        header.length.toNat = headerSize + code.length ∧
        (find (Device.archive device) container header.length header.hash).outcome =
          .ok (.free offset) ∧
        header.length.toNat ≤ container.capacity - offset.value.toNat ∧
        accepted (append container header code) device =
          WriteSession.reached container.index offset.value.toUInt32
            (recordChunks header code (container.capacity - offset.value.toNat)) device ∧
        ((append container header code).result device).2 =
          ((WriteSession.run container.index offset.value.toUInt32
            (recordChunks header code (container.capacity - offset.value.toNat))).result
              device).2 := by
  have plain := (append_finalizes container header code device).1.sameDevice
  rcases result_append_cases container header code (⟨device, []⟩ : Recorder δ) with
    ⟨same, -⟩ | ⟨offset, valid, sized, found, fits, result⟩
  · left
    rw [same] at plain
    unfold accepted
    rw [same]
    exact ⟨rfl, plain.symm⟩
  · right
    have session := (WriteSession.run_finalizes container.index offset.value.toUInt32
      (recordChunks header code (container.capacity - offset.value.toNat)) device).1.sameDevice
    refine ⟨offset, valid, sized, found, fits, ?_, ?_⟩
    · rw [← WriteSession.accepted_run]
      unfold accepted
      rw [result]
    · rw [← plain, ← session, result]

theorem appendCode_finalizes (hash : Hash) (code : Bytes) :
    Finalizes container.index (appendCode container hash code)
      fun appended => appended.stored = true := by
  intro δ _ device
  rw [result_appendCode, result_appendCode]
  cases Header.ofCode hash code with
  | error cause => exact ⟨.silent _ _ _, nofun⟩
  | ok header => exact append_finalizes container header code device

theorem erase_finalizes : Finalizes container.index (erase container) fun _ => True := by
  intro δ _ device
  rw [result_erase, result_erase]
  obtain ⟨orderly, requested⟩ :=
    WriteSession.run_finalizes container.index 0 [eraseMark] device
  refine ⟨orderly.rename (Outcome.mapCause Error.flash) ?_, ?_⟩
  · intro outcome
    cases outcome with
    | ok done => rfl
    | error stop => rfl
  · intro value erased _
    exact requested value (Outcome.mapCause_eq_ok.mp erased) trivial

/-- Whatever a device answers to reads and to requests, an append or an erase
either gives it no request, or one that fails to open the container, or it opens
the container, stops writing at the first write that fails, and closes it once,
behind everything else. After any request it succeeds exactly if all its
requests did, and it stores or erases nothing without a request. -/
theorem sessions_are_finalized_once :
    (∀ (header : Header) (code : Bytes),
      Finalizes container.index (append container header code)
        fun appended => appended.stored = true) ∧
    (∀ (hash : Hash) (code : Bytes),
      Finalizes container.index (appendCode container hash code)
        fun appended => appended.stored = true) ∧
    Finalizes container.index (erase container) fun _ => True :=
  ⟨append_finalizes container, appendCode_finalizes container, erase_finalizes container⟩

/-- A session whose write and whose close are both refused. -/
example : ((erase oddContainer).result (⟨.start oddImage
      { Flash.FaultPlan.none with writes := [1], closes := [1] }, []⟩ :
        Recorder Flash.FaultyDevice)).2.exchanges =
    [⟨.openFile 0 0, .ok ()⟩,
      ⟨.writeBytes eraseMark, Outcome.refuse (Flash.FaultyDevice.refusal .write)⟩,
      ⟨.closeFile, Outcome.refuse (Flash.FaultyDevice.refusal .close)⟩] := by
  decide

end Operations

end CodeCapsules.Store
