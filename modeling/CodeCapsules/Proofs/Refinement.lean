import CodeCapsules.Proofs.Log
import CodeCapsules.Proofs.Writing

/-!
Contract: an open store on an image behaves as a log of capsules.

Owns:
- `Rests` and `Represents`, the relation between a store and the log it stands
  for;
- `Log.stepOn`, the log with the one answer that only a device gives;
- the step lemma: each call answers as the log does and keeps the relation.

Main statement: as long as no empty code is written up to the end of memory,
every answer of a store is that of the log, and its container always decodes to
the log.
-/

namespace CodeCapsules.Store

open Flash (Device Image)

/-- A store on an idle image, whatever is in its container. -/
structure Rests (container : Container) (memoryEnd : Nat) (store : Store Image) : Prop where
  located : store.container = container
  bounded : store.device.memoryEnd = memoryEnd
  mounted : store.device.Mounts container.index container.entry
  idle : store.device.cursor = none

/-- A store on an idle image, the container of which contains the capsules of
the log. -/
structure Represents (container : Container) (memoryEnd : Nat) (store : Store Image)
    (log : Log) : Prop extends Rests container memoryEnd store where
  contained : Contains (store.device.region container.entry) container.firstPlace log.capsules
  generation : store.generation = log.generation

namespace Log

/-- The answer of a device where the log gives this one. A record that is
stored may still be refused afterwards. -/
def settled (container : Container) (memoryEnd : Nat) (log : Log) (code : Bytes) :
    Outcome Error Appended → Outcome Error Appended
  | .ok ⟨_, true⟩ => laidAnswer container memoryEnd (log.used container.firstPlace) code
  | answer => answer

/-- What a call answers on a device, and the log after it. -/
def stepOn (container : Container) (memoryEnd : Nat) (call : Call) (log : Log) :
    Outcome Error Reply × Log :=
  let next := (step container.firstPlace container.capacity call log).2
  match call with
  | .append header code =>
      ((settled container memoryEnd log code
        (log.append container.firstPlace container.capacity header code).1).map .appended, next)
  | .appendCode hash code =>
      ((settled container memoryEnd log code
        (log.appendCode container.firstPlace container.capacity hash code).1).map .appended, next)
  | _ => ((step container.firstPlace container.capacity call log).1, next)

end Log

section Calls

variable {container : Container} {memoryEnd : Nat} {store : Store Image} {log : Log}

/-- A session on the container leaves the store at rest. -/
theorem Rests.written (rests : Rests container memoryEnd store) (place : Nat) (chunk : Bytes)
    (generation : Generation) :
    Rests container memoryEnd
      { store with
        device := store.device.written container.entry place chunk none
        generation } := by
  refine ⟨rests.located, ?_, rests.mounted.written _ _ _ _, rfl⟩
  show (store.device.written _ _ _ _).memoryEnd = _
  rw [Flash.Image.written_memoryEnd]
  exact rests.bounded

theorem Represents.shows (represents : Represents container memoryEnd store log) :
    Shows store.device.archive container (store.device.region container.entry) :=
  shows_region represents.mounted.holds represents.mounted.addressable

/-- A lookup answers by the capsules of the log. -/
theorem Represents.find (represents : Represents container memoryEnd store log) (length : UInt16)
    (hash : Hash) :
    (Store.find store.device.archive container length hash).outcome =
      .ok (slotAmong container.firstPlace log.capsules length hash) :=
  find_of_contains represents.shows represents.contained length hash

/-- A record laid behind the last capsule adds its capsule to the log. -/
theorem Represents.laid (represents : Represents container memoryEnd store log)
    (capsule : Capsule)
    (fits : log.used container.firstPlace + capsule.size ≤ container.capacity) :
    Represents container memoryEnd
      { store with
        device := store.device.written container.entry (log.used container.firstPlace)
          (recordChunks capsule.header capsule.code
            (container.capacity - log.used container.firstPlace)).flatten none }
      { log with capsules := log.capsules ++ [capsule] } := by
  have size := represents.shows.size
  have chunksLe := length_recordChunks_le capsule
    (container.capacity - log.used container.firstPlace) (by omega)
  refine ⟨represents.toRests.written _ _ _, ?_, represents.generation⟩
  show Contains ((store.device.written _ _ _ _).region container.entry) _ _
  rw [Flash.Image.region_written represents.mounted.holds
    (by unfold Container.capacity at fits chunksLe ⊢; omega)]
  have added := represents.contained.splice_record capsule
    (by rw [size]; unfold Log.used at fits; exact fits)
  rw [size] at added
  exact added

/-- An append answers as the log does, up to the last write, and leaves the log
that the log leaves. -/
theorem Represents.append (represents : Represents container memoryEnd store log)
    (header : Header) (code : Bytes) :
    ((Store.append container header code).result store.device).1 =
        log.settled container memoryEnd code
          (log.append container.firstPlace container.capacity header code).1 ∧
      Represents container memoryEnd
        { store with device := ((Store.append container header code).result store.device).2 }
        (log.append container.firstPlace container.capacity header code).2 := by
  have usedLt : log.used container.firstPlace < 65536 :=
    represents.shows.finish_lt represents.contained.spelled
  rw [result_append]
  unfold Header.validate Log.append
  by_cases zero : header.length = 0
  · rw [if_pos zero, if_pos zero]
    exact ⟨rfl, represents⟩
  by_cases short : header.length.toNat < headerSize
  · rw [if_neg zero, if_pos short, if_neg zero, if_pos short]
    exact ⟨rfl, represents⟩
  rw [if_neg zero, if_neg short, if_neg zero, if_neg short]
  simp only
  by_cases sized : header.length.toNat = headerSize + code.length
  · rw [if_neg (not_not_intro sized), dif_pos sized]
    rw [show (Device.archive store.device) = store.device.archive from rfl,
      represents.find header.length header.hash]
    cases slotEq : slotAmong container.firstPlace log.capsules header.length header.hash with
    | found offset => exact ⟨rfl, represents⟩
    | free offset =>
        have offsetEq : offset = ⟨(log.used container.firstPlace).toUInt16⟩ :=
          offset_of_slotAmong_free slotEq
        have usedEq : offset.value.toNat = log.used container.firstPlace := by
          rw [offsetEq]
          exact toNat_toUInt16 usedLt
        simp only
        by_cases full : container.capacity - log.used container.firstPlace < header.length.toNat
        · rw [result_appendAt, usedEq, if_pos full, if_pos full]
          exact ⟨rfl, represents⟩
        · let capsule : Capsule := ⟨header, code, sized⟩
          have fits : log.used container.firstPlace + capsule.size ≤ container.capacity := by
            show _ + header.length.toNat ≤ _
            unfold headerSize at short
            omega
          have laid := result_appendAt_of_fits represents.mounted represents.idle capsule fits
          rw [if_neg full, offsetEq, laid, represents.bounded]
          exact ⟨rfl, represents.laid capsule fits⟩
  · rw [if_pos sized, dif_neg sized]
    exact ⟨rfl, represents⟩

theorem Represents.appendCode (represents : Represents container memoryEnd store log)
    (hash : Hash) (code : Bytes) :
    ((Store.appendCode container hash code).result store.device).1 =
        log.settled container memoryEnd code
          (log.appendCode container.firstPlace container.capacity hash code).1 ∧
      Represents container memoryEnd
        { store with device := ((Store.appendCode container hash code).result store.device).2 }
        (log.appendCode container.firstPlace container.capacity hash code).2 := by
  rw [result_appendCode]
  unfold Header.ofCode Log.appendCode
  rw [Nat.add_comm code.length headerSize]
  by_cases short : headerSize + code.length ≤ 65535
  · rw [if_pos short, if_pos short]
    exact represents.append _ code
  · rw [if_neg short, if_neg short]
    exact ⟨rfl, represents⟩

/-- An erase succeeds and leaves the empty log, whatever was in the container. -/
theorem Rests.erase (rests : Rests container memoryEnd store)
    (room : eraseMark.length ≤ container.capacity) (generation : Generation) :
    ((Store.erase container).result store.device).1 = .ok () ∧
      Represents container memoryEnd
        { store with
          device := ((Store.erase container).result store.device).2
          generation }
        ⟨[], generation⟩ := by
  have size : (store.device.region container.entry).length = container.capacity :=
    Flash.Image.length_region rests.mounted.holds
  rw [result_erase_of_room rests.mounted rests.idle room]
  refine ⟨rfl, rests.written _ _ generation, ?_, rfl⟩
  show Contains ((store.device.written _ _ _ _).region container.entry) _ _
  rw [Flash.Image.region_written rests.mounted.holds
    (by unfold Container.capacity at room; omega)]
  exact contains_splice_eraseMark container.firstPlace_le_one (by rw [size]; exact room)

/-- Clearing the store empties the log and starts the next generation. -/
theorem Rests.clear (rests : Rests container memoryEnd store)
    (room : eraseMark.length ≤ container.capacity) :
    ((Store.clear : Operation (Store Image) Error Unit).result store).1 = .ok () ∧
      Represents container memoryEnd
        ((Store.clear : Operation (Store Image) Error Unit).result store).2
        ⟨[], store.generation.next⟩ := by
  obtain ⟨erased, after⟩ := rests.erase room store.generation.next
  have onDevice : (Store.onDevice Store.erase).result store =
      (.ok (), { store with device := ((Store.erase container).result store.device).2 }) := by
    rw [← rests.located] at erased ⊢
    exact Prod.ext erased rfl
  unfold Store.clear
  rw [Operation.result_bind, onDevice, Operation.continueWith_ok]
  exact ⟨rfl, after⟩

/-- A lookup in the store answers by the log, in the generation of the log. -/
theorem Represents.lookup (represents : Represents container memoryEnd store log)
    (length : UInt16) (hash : Hash) :
    (store.lookup length hash).outcome =
      .ok (.ofSlot log.generation (slotAmong container.firstPlace log.capsules length hash)) := by
  have slot := represents.find length hash
  rw [← represents.located] at slot ⊢
  unfold Store.lookup Store.findSlot
  rw [Logged.outcome_bind, ← represents.generation]
  show (Store.find store.device.archive _ _ _).outcome >>= _ = _
  rw [slot]
  rfl

/-- What a store reads is what its log says. -/
theorem Represents.reads (represents : Represents container memoryEnd store log) :
    store.list.outcome = .ok (recordsAt container.firstPlace log.capsules) ∧
      store.used.outcome = .ok (log.used container.firstPlace) ∧
      store.free.outcome = .ok (container.capacity - log.used container.firstPlace) := by
  have listed := records_of_contains represents.shows represents.contained
  have used := usedBytes_of_contains represents.shows represents.contained
  rw [← represents.located] at listed used ⊢
  refine ⟨listed, used, ?_⟩
  show (freeBytes store.device.archive store.container).outcome = _
  unfold freeBytes
  rw [Logged.outcome_bind, used]
  rfl

/-- Every call answers as the log on a device does, and leaves the store of the
log that it leaves. -/
theorem Represents.step (represents : Represents container memoryEnd store log)
    (room : eraseMark.length ≤ container.capacity) (call : Call) :
    (call.perform.result store).1 = (log.stepOn container memoryEnd call).1 ∧
      Represents container memoryEnd (call.perform.result store).2
        (log.stepOn container memoryEnd call).2 := by
  obtain ⟨listed, used, free⟩ := represents.reads
  cases call with
  | append header code =>
      have appended := represents.append header code
      rw [← represents.located] at appended ⊢
      simp only [Call.perform, Operation.result_map, Log.stepOn]
      exact ⟨congrArg (Except.map Reply.appended) appended.1, appended.2⟩
  | appendCode hash code =>
      have appended := represents.appendCode hash code
      rw [← represents.located] at appended ⊢
      simp only [Call.perform, Operation.result_map, Log.stepOn]
      exact ⟨congrArg (Except.map Reply.appended) appended.1, appended.2⟩
  | erase =>
      obtain ⟨cleared, after⟩ := represents.toRests.clear room
      rw [represents.generation] at after
      simp only [Call.perform, Operation.result_map]
      exact ⟨congrArg (Except.map fun _ => Reply.erased) cleared, after⟩
  | find length hash =>
      have found := represents.find length hash
      rw [← represents.located] at found ⊢
      simp only [Call.perform, Operation.result_map, Call.result_reading]
      rw [← represents.located] at represents
      exact ⟨congrArg (Except.map Reply.slot) found, represents⟩
  | lookup length hash =>
      simp only [Call.perform, Operation.result_map, Call.result_reading]
      exact ⟨congrArg (Except.map Reply.lookup) (represents.lookup length hash), represents⟩
  | list =>
      simp only [Call.perform, Operation.result_map, Call.result_reading]
      exact ⟨congrArg (Except.map Reply.listed) listed, represents⟩
  | used =>
      simp only [Call.perform, Operation.result_map, Call.result_reading]
      exact ⟨congrArg (Except.map Reply.bytes) used, represents⟩
  | free =>
      simp only [Call.perform, Operation.result_map, Call.result_reading]
      exact ⟨congrArg (Except.map Reply.bytes) free, represents⟩

end Calls

/-! ## From the opened store on -/

/-- A container is located exactly if its index is found and its entry is that
of the file there. -/
theorem container_locate_eq_ok {archive : Flash.Archive} {type : FileType}
    {container : Container} :
    (Container.locate archive type).outcome = .ok container ↔
      (locate archive type).outcome = .ok container.index ∧
        archive.file container.index = .ok container.entry := by
  unfold Container.locate
  simp only [Logged.outcome_bind, Logged.outcome_ofOutcome, Outcome.bind_eq_ok,
    Outcome.mapCause_eq_ok, Outcome.ofExcept_eq_ok]
  constructor
  · rintro ⟨index, found, entry, filed, made⟩
    unfold Container.ofEntry at made
    split at made
    · rw [← Except.ok.inj made]
      exact ⟨found, filed⟩
    · contradiction
  · rintro ⟨found, filed⟩
    exact ⟨container.index, found, container.entry, filed, dif_pos container.reachable⟩

/-- The entry of a located container is that of its file. -/
theorem file_of_locate {archive : Flash.Archive} {type : FileType} {container : Container}
    (located : (Container.locate archive type).outcome = .ok container) :
    archive.file container.index = .ok container.entry :=
  (container_locate_eq_ok.mp located).2

/-- A container that is found in a valid image can be addressed there. -/
theorem mounts_of_locate {image : Image} {type : FileType} {container : Container}
    (valid : image.validate = .ok ()) (addressable : image.memoryEnd < UInt32.size)
    (located : (Container.locate image.archive type).outcome = .ok container) :
    image.Mounts container.index container.entry := by
  have filed : image.file container.index = .ok container.entry := file_of_locate located
  exact ⟨filed, Flash.Image.holds_of_validate valid filed, addressable⟩

/-- An opened store has its device, its container, and no erase behind it. -/
theorem eq_of_start {δ : Type} [Device δ] {device : δ} {config : Config} {store : Store δ}
    (opened : (start device config).outcome = .ok store) :
    (Container.locate (Device.archive device) config.containerType).outcome =
        .ok store.container ∧
      store = ⟨device, config, store.container, .initial⟩ := by
  unfold start at opened
  rw [Logged.outcome_bind] at opened
  cases located : (Container.locate (Device.archive device) config.containerType).outcome with
  | error stop =>
      rw [located] at opened
      contradiction
  | ok container =>
      rw [located] at opened
      rw [← Except.ok.inj opened]
      exact ⟨rfl, rfl⟩

/-- A store that was opened on a valid image stands for the log of the capsules
in its container. -/
theorem represents_of_start {image : Image} {config : Config} {store : Store Image}
    {capsules : List Capsule} (valid : image.validate = .ok ())
    (addressable : image.memoryEnd < UInt32.size) (idle : image.cursor = none)
    (opened : (start image config).outcome = .ok store)
    (contained : Contains (image.region store.container.entry) store.container.firstPlace
      capsules) :
    Represents store.container image.memoryEnd store ⟨capsules, .initial⟩ := by
  obtain ⟨located, storeEq⟩ := eq_of_start opened
  have mounted := mounts_of_locate valid addressable located
  rw [storeEq]
  exact ⟨⟨rfl, rfl, mounted, idle⟩, contained, rfl⟩

/-- The file of the container decodes to these capsules and to no others. -/
def Decodes (store : Store Image) (capsules : List Capsule) : Prop :=
  ∃ bytes, store.device.fileBytes store.container.index = .ok bytes ∧
    ∀ other, Contains bytes store.container.firstPlace other ↔ other = capsules

/-- A store decodes to the log that it stands for. -/
theorem Represents.decodes {container : Container} {memoryEnd : Nat} {store : Store Image}
    {log : Log} (represents : Represents container memoryEnd store log)
    (room : eraseMark.length ≤ container.capacity) : Decodes store log.capsules := by
  have mounted := represents.mounted
  have nonempty : 0 < container.entry.size.toNat := by
    have markLength : eraseMark.length = 3 := rfl
    unfold Container.capacity at room
    omega
  unfold Decodes
  rw [represents.located]
  refine ⟨_, Flash.Image.fileBytes_eq_region mounted.filed mounted.holds mounted.addressable
    nonempty, ?_⟩
  intro other
  constructor
  · intro contained
    exact contained.unique represents.contained
  · intro otherEq
    rw [otherEq]
    exact represents.contained

/-- A call that a device answers as the log does: it brings no empty code, or
the container ends before memory. -/
def Call.Clear (container : Container) (memoryEnd : Nat) (call : Call) : Prop :=
  call.code? ≠ some [] ∨ container.base.value.toNat + container.capacity < memoryEnd

/-- A record that is stored is answered as the log answers it, unless it is an
empty code at the end of memory. -/
theorem Log.settled_eq {container : Container} {memoryEnd : Nat} (log : Log) (header : Header)
    {code : Bytes}
    (clear : code ≠ [] ∨ container.base.value.toNat + container.capacity < memoryEnd) :
    log.settled container memoryEnd code
        (log.append container.firstPlace container.capacity header code).1 =
      (log.append container.firstPlace container.capacity header code).1 := by
  unfold Log.append
  split
  · rfl
  split
  · rfl
  split
  · rename_i short sized
    cases slotEq : slotAmong container.firstPlace log.capsules header.length header.hash with
    | found offset => rfl
    | free offset =>
        simp only
        split
        · rfl
        · rename_i fits
          have offsetEq : offset = ⟨(log.used container.firstPlace).toUInt16⟩ :=
            offset_of_slotAmong_free slotEq
          show laidAnswer container memoryEnd (log.used container.firstPlace) code = _
          unfold laidAnswer
          rw [if_neg, offsetEq]
          rintro ⟨codeEq, atEnd⟩
          rcases clear with nonempty | before
          · exact nonempty codeEq
          · unfold headerSize at short sized atEnd
            omega
  · rfl

theorem Log.stepOn_eq {container : Container} {memoryEnd : Nat} {call : Call} {log : Log}
    (clear : call.Clear container memoryEnd) :
    log.stepOn container memoryEnd call =
      Log.step container.firstPlace container.capacity call log := by
  cases call with
  | append header code =>
      have kept := Log.settled_eq log header
        (clear.imp_left fun apart codeEq => apart (congrArg some codeEq))
      simp only [Log.stepOn, kept]
      rfl
  | appendCode hash code =>
      have apart := clear.imp_left fun apart (codeEq : code = []) => apart (congrArg some codeEq)
      simp only [Log.stepOn, Log.step, Log.appendCode]
      split
      · rw [Log.settled_eq log _ apart]
      · rfl
  | erase => rfl
  | find length hash => rfl
  | lookup length hash => rfl
  | list => rfl
  | used => rfl
  | free => rfl

/-- An opened store is a log of capsules that stores each header once. From any
container that can be listed, every answer of every run is that of the log which
the container decodes to, and after every call the container decodes to the log
of that moment. A run without an erase keeps all capsules where they were, and
headers that were distinct stay so. -/
theorem store_refines_log (image : Image) (config : Config) (store : Store Image)
    (listed : List Record) (valid : image.validate = .ok ())
    (addressable : image.memoryEnd < UInt32.size) (idle : image.cursor = none)
    (opened : (start image config).outcome = .ok store) (room : 3 ≤ store.container.capacity)
    (listable : store.list.outcome = .ok listed) :
    ∃ log : Log, log.generation = .initial ∧ Decodes store log.capsules ∧
      ∀ calls : List Call, (∀ call ∈ calls, call.Clear store.container image.memoryEnd) →
        List.Forall₂ (fun performed stepped =>
            performed.1 = stepped.1 ∧ Decodes performed.2 stepped.2.capsules)
          (trace (fun call => call.perform.result) calls store)
          (trace (Log.step store.container.firstPlace store.container.capacity) calls log) ∧
        ((∀ call ∈ calls, call ≠ .erase) →
          ∀ entry ∈ trace (Log.step store.container.firstPlace store.container.capacity) calls log,
            log.capsules <+: entry.2.capsules) ∧
        (log.Distinct →
          ∀ entry ∈ trace (Log.step store.container.firstPlace store.container.capacity) calls log,
            entry.2.Distinct) := by
  obtain ⟨located, storeEq⟩ := eq_of_start opened
  have shows := shows_region (mounts_of_locate valid addressable located).holds addressable
  have listedImage : (records image.archive store.container).outcome = .ok listed := by
    rw [storeEq] at listable
    exact listable
  obtain ⟨capsules, contained, -⟩ := contains_of_records shows listedImage
  have represents := represents_of_start valid addressable idle opened contained
  refine ⟨⟨capsules, .initial⟩, rfl, represents.decodes room, ?_⟩
  intro calls clear
  refine ⟨?_, ?_, ?_⟩
  · have steps := trace_related (Represents store.container image.memoryEnd)
      (fun call left right (clear : call.Clear store.container image.memoryEnd) related => by
        have stepped := related.step room call
        rw [Log.stepOn_eq clear] at stepped
        exact stepped) calls clear store _ represents
    exact steps.imp fun _ _ related => ⟨related.1, related.2.decodes room⟩
  · intro keeps
    exact trace_keeps (fun log => capsules <+: log.capsules)
      (fun call log keeps => Log.prefix_step call log keeps) calls keeps ⟨capsules, .initial⟩
      (List.prefix_refl capsules)
  · intro distinct
    exact trace_keeps Log.Distinct (fun call log _ distinct => distinct.step call) calls
      (fun _ _ => trivial) _ distinct

/-- The store that is opened on `oddImage`. -/
def oddStore : Store Image := ⟨oddImage, .standard, oddContainer, .initial⟩

/-- The capsule of `oddImage` again, a capsule for which there is no room, and
the same after an erase. -/
def oddCalls : List Call :=
  [.appendCode ⟨1, 2, 3, 4⟩ [0x08, 0x95], .appendCode ⟨5, 6, 7, 8⟩ [1, 2, 3, 4], .erase,
    .appendCode ⟨5, 6, 7, 8⟩ [1, 2, 3, 4], .append ⟨7, ⟨0, 0, 0, 0⟩⟩ [1, 2], .used]

theorem store_refines_log_at_odd_base :
    oddImage.validate = .ok () ∧ oddImage.memoryEnd < UInt32.size ∧ oddImage.cursor = none ∧
      (start oddImage .standard).outcome = .ok oddStore ∧ 3 ≤ oddStore.container.capacity ∧
      oddStore.list.outcome = .ok [⟨⟨1⟩, ⟨8, ⟨1, 2, 3, 4⟩⟩⟩] ∧
      (∀ call ∈ oddCalls, call.Clear oddStore.container oddImage.memoryEnd) ∧
      (trace (fun call => call.perform.result) oddCalls oddStore).map Prod.fst =
        [.ok (.appended ⟨⟨1⟩, false⟩), Outcome.refuse (.containerFull ⟨9⟩ 10 2), .ok .erased,
          .ok (.appended ⟨⟨1⟩, true⟩), Outcome.refuse (.lengthMismatch 7 2), .ok (.bytes 11)] := by
  have valid : oddImage.validate = .ok () := by decide
  have addressable : oddImage.memoryEnd < UInt32.size := by decide
  have opened : (start oddImage .standard).outcome = .ok oddStore := by rfl
  have room : 3 ≤ oddStore.container.capacity := by decide
  have clear : ∀ call ∈ oddCalls, call.Clear oddStore.container oddImage.memoryEnd := by
    intro call member
    left
    revert call
    decide
  have inside : oddImage.Holds oddContainer.entry := by decide
  have contained : Contains (oddImage.region oddContainer.entry) oddContainer.firstPlace
      [returnCapsule] := by
    refine ⟨?_, ?_⟩
    · unfold Spells
      decide
    · unfold Ends
      decide
  have listable : oddStore.list.outcome = .ok [⟨⟨1⟩, ⟨8, ⟨1, 2, 3, 4⟩⟩⟩] :=
    records_of_contains (shows_region inside addressable) contained
  obtain ⟨⟨capsules, generation⟩, initial, ⟨bytes, read, decoded⟩, refines⟩ :=
    store_refines_log oddImage .standard oddStore _ valid addressable rfl opened room listable
  have filed : oddImage.file oddContainer.index = .ok oddContainer.entry := by rfl
  have bytesEq : bytes = oddImage.region oddContainer.entry := by
    have region := Flash.Image.fileBytes_eq_region filed inside addressable (by decide)
    exact Except.ok.inj (read.symm.trans region)
  have capsulesEq : [returnCapsule] = capsules := by
    apply (decoded _).mp
    rw [bytesEq]
    exact contained
  simp only at initial
  subst initial capsulesEq
  have answers := replies_eq (refines oddCalls clear).1 fun _ _ same => same.1
  refine ⟨valid, addressable, rfl, opened, room, listable, clear, answers.trans ?_⟩
  decide

end CodeCapsules.Store
