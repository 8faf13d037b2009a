import CodeCapsules.Proofs.Alignment
import CodeCapsules.Proofs.Lockstep

/-!
Contract: a program that is assembled and stored is run where it was stored.

Owns:
- sessions that succeed, on any image: all their bytes are in memory;
- records that an append stored, and the bytes of their code;
- code that lies at a word address, as a program that is loaded there.

Main statement: behind records of even length, calling a stored program gives
what its lines give when they are run one by one.
-/

namespace CodeCapsules.Flash

/-! ## Sessions that succeed -/

namespace Image

variable {image : Image} {start : Nat} {chunk next : Bytes} {middle last : Option Cursor}

theorem rewritten_rewritten :
    (image.rewritten start chunk middle).rewritten (start + chunk.length) next last =
      image.rewritten start (chunk ++ next) last := by
  unfold rewritten
  rw [← Bytes.overwrite_overwrite]

theorem readByte_rewritten {base index : Nat} {byte : UInt8} {address : CodeAddress}
    (originLe : image.origin.toNat ≤ base)
    (room : base - image.origin.toNat + chunk.length ≤ image.memory.size)
    (addressEq : address.value.toNat = base + index) (present : chunk[index]? = some byte) :
    (image.rewritten (base - image.origin.toNat) chunk last).readByte address = .ok byte := by
  have indexLt := (List.getElem?_eq_some_iff.mp present).1
  have indexed : (image.rewritten (base - image.origin.toNat) chunk last).indexOf address =
      .ok (base - image.origin.toNat + index) := by
    unfold indexOf
    simp only [origin_rewritten, size_rewritten, UInt32.le_iff_toNat_le, addressEq]
    rw [if_pos (by omega)]
    exact congrArg Except.ok (by omega)
  have stored : (image.rewritten (base - image.origin.toNat) chunk last).memory[
      base - image.origin.toNat + index]? = some byte := by
    show (Bytes.overwrite image.memory _ chunk)[_]? = _
    rw [Bytes.getElem?_overwrite _ _ _ room, if_pos (by omega), Nat.add_sub_cancel_left]
    exact present
  simp only [readByte, indexed, bind, Except.bind, stored]

end Image

namespace WriteSession

variable {image wrote : Image} {index : Nat} {entry : Entry}

/-- A write that was accepted is in memory where the session stood. -/
theorem writeBytes_eq_ok {position : UInt32} {chunk : Bytes} {done : Unit}
    (filed : image.file index = .ok entry) (busy : image.cursor = some ⟨index, position⟩)
    (short : chunk.length < UInt32.size)
    (accepted : (Device.writeBytes chunk : Command Image).result image = (.ok done, wrote)) :
    image.origin.toNat ≤ entry.base.value.toNat + position.toNat ∧
      entry.base.value.toNat + position.toNat - image.origin.toNat + chunk.length ≤
        image.memory.size ∧
      ∃ next : UInt32, next.toNat = position.toNat + chunk.length ∧
        wrote = image.rewritten (entry.base.value.toNat + position.toNat - image.origin.toNat)
          chunk (some ⟨index, next⟩) := by
  change (Image.replacing fun image => image.writeSession chunk).result image = _ at accepted
  rw [Image.result_replacing] at accepted
  cases writing : image.writeSession chunk with
  | error stop =>
      rw [writing] at accepted
      exact absurd (Prod.mk.inj accepted).1 (by simp)
  | ok changed =>
      rw [writing] at accepted
      obtain ⟨cursor, written, cursorEq, writtenFiled, originLe, room, moves, changedEq⟩ :=
        Image.writeSession_eq writing
      rw [busy] at cursorEq
      rw [← Option.some.inj cursorEq] at writtenFiled originLe room moves changedEq
      rw [filed] at writtenFiled
      rw [← Except.ok.inj writtenFiled] at originLe room moves changedEq
      have lengthEq := toNat_toUInt32 short
      refine ⟨originLe, room, position + chunk.length.toUInt32, ?_, ?_⟩
      · have sizeLt := entry.size.toNat_lt
        simp only [lengthEq] at moves
        rw [UInt32.toNat_add, lengthEq, Nat.mod_eq_of_lt (by omega)]
      · rw [← changedEq]
        exact (congrArg Prod.snd accepted).symm

/-- A session that got through has written its first byte string, and the
others from where that ends. -/
theorem writeAll_cons_eq_ok {session finished : WriteSession} {position : UInt32} {chunk : Bytes}
    {rest : List Bytes} (filed : image.file index = .ok entry)
    (busy : image.cursor = some ⟨index, position⟩) (short : chunk.length < UInt32.size)
    (accepted : (session.writeAll (chunk :: rest)).result image = (.ok finished, wrote)) :
    image.origin.toNat ≤ entry.base.value.toNat + position.toNat ∧
      entry.base.value.toNat + position.toNat - image.origin.toNat + chunk.length ≤
        image.memory.size ∧
      ∃ (next : UInt32) (changed : Image) (later : WriteSession),
        next.toNat = position.toNat + chunk.length ∧
        changed = image.rewritten
          (entry.base.value.toNat + position.toNat - image.origin.toNat) chunk
          (some ⟨index, next⟩) ∧
        (later.writeAll rest).result changed = (.ok finished, wrote) := by
  rw [result_writeAll_cons] at accepted
  cases writing : (Device.writeBytes chunk : Command Image).result image with
  | mk outcome changed =>
      rw [writing] at accepted
      cases outcome with
      | error stop => exact absurd (Prod.mk.inj accepted).1 (by simp)
      | ok done =>
          obtain ⟨originLe, room, next, nextEq, changedEq⟩ :=
            writeBytes_eq_ok filed busy short writing
          exact ⟨originLe, room, next, changed, _, nextEq, changedEq, accepted⟩

/-- Byte strings that were all accepted are in memory, one behind the other. -/
theorem writeAll_eq_ok {session finished : WriteSession} {position : UInt32} {chunk : Bytes}
    {rest : List Bytes} (filed : image.file index = .ok entry)
    (busy : image.cursor = some ⟨index, position⟩)
    (short : ∀ sent ∈ chunk :: rest, sent.length < UInt32.size)
    (accepted : (session.writeAll (chunk :: rest)).result image = (.ok finished, wrote)) :
    image.origin.toNat ≤ entry.base.value.toNat + position.toNat ∧
      entry.base.value.toNat + position.toNat - image.origin.toNat +
        (chunk :: rest).flatten.length ≤ image.memory.size ∧
      ∃ cursor, wrote = image.rewritten
        (entry.base.value.toNat + position.toNat - image.origin.toNat)
        (chunk :: rest).flatten (some cursor) := by
  induction rest generalizing session image position chunk with
  | nil =>
      obtain ⟨originLe, room, next, changed, _, -, changedEq, ended⟩ :=
        writeAll_cons_eq_ok filed busy (short chunk (by simp)) accepted
      have wroteEq : changed = wrote := congrArg Prod.snd ended
      rw [List.flatten_singleton, ← wroteEq]
      exact ⟨originLe, room, _, changedEq⟩
  | cons following rest inductionHypothesis =>
      obtain ⟨originLe, -, next, changed, _, nextEq, changedEq, continued⟩ :=
        writeAll_cons_eq_ok filed busy (short chunk (by simp)) accepted
      have changedFiled : changed.file index = .ok entry := by
        rw [changedEq]
        exact filed
      have changedBusy : changed.cursor = some ⟨index, next⟩ := by
        rw [changedEq]
        rfl
      obtain ⟨-, restRoom, cursor, wroteEq⟩ := inductionHypothesis changedFiled changedBusy
        (fun sent member => short sent (List.mem_cons_of_mem _ member)) continued
      rw [changedEq] at restRoom wroteEq
      -- The rest starts where the first byte string ends.
      have nextStart : entry.base.value.toNat + next.toNat - image.origin.toNat =
          entry.base.value.toNat + position.toNat - image.origin.toNat + chunk.length := by
        omega
      simp only [Image.origin_rewritten, Image.size_rewritten] at restRoom wroteEq
      rw [nextStart] at restRoom wroteEq
      rw [Image.rewritten_rewritten] at wroteEq
      rw [List.flatten_cons, List.length_append, ← Nat.add_assoc]
      exact ⟨originLe, restRoom, cursor, wroteEq⟩

/-- A session that succeeds leaves all its bytes in memory. -/
theorem run_eq_ok {offset : UInt32} {chunk : Bytes} {rest : List Bytes} {done : Unit}
    (filed : image.file index = .ok entry)
    (short : ∀ sent ∈ chunk :: rest, sent.length < UInt32.size)
    (accepted : (run index offset (chunk :: rest)).result image = (.ok done, wrote)) :
    image.origin.toNat ≤ entry.base.value.toNat + offset.toNat ∧
      entry.base.value.toNat + offset.toNat - image.origin.toNat +
        (chunk :: rest).flatten.length ≤ image.memory.size ∧
      ∃ cursor, wrote = image.rewritten
        (entry.base.value.toNat + offset.toNat - image.origin.toNat)
        (chunk :: rest).flatten cursor := by
  have opening :=
    Image.result_replacing (fun image => Outcome.ofExcept (image.openSession index offset)) image
  cases session : image.openSession index offset with
  | error cause =>
      rw [session] at opening
      rw [result_run_of_refused (congrArg Prod.fst opening)] at accepted
      exact absurd (Prod.mk.inj accepted).1 (by simp)
  | ok opened =>
      rw [session] at opening
      obtain ⟨-, openedEq, -⟩ := Image.openSession_eq session
      have openedFiled : opened.file index = .ok entry := by
        rw [openedEq]
        exact filed
      have openedBusy : opened.cursor = some ⟨index, offset⟩ := by rw [openedEq]
      rw [result_run_of_open opening] at accepted
      cases writing : ((⟨index, 0⟩ : WriteSession).writeAll (chunk :: rest)).result opened with
      | mk outcome after =>
          rw [writing] at accepted
          cases outcome with
          | error stop => exact absurd (Prod.mk.inj accepted).1 (by simp)
          | ok finished =>
              obtain ⟨originLe, room, cursor, afterEq⟩ :=
                writeAll_eq_ok openedFiled openedBusy short writing
              have closed : (Device.closeFile : Command Image).result after =
                  (.ok (), { after with cursor := none }) :=
                Image.result_closeFile (by rw [afterEq]; rfl)
              have wroteEq : wrote = { after with cursor := none } := by
                simp only [closed] at accepted
                exact (congrArg Prod.snd accepted).symm
              rw [openedEq] at originLe room afterEq
              refine ⟨originLe, room, none, ?_⟩
              rw [wroteEq, afterEq]
              rfl

end WriteSession

end CodeCapsules.Flash

namespace CodeCapsules.Machine

open Flash (Archive)

/-! ## Code at a word address -/

theorem toNat_lineAddress {entry : UInt16} {index : Nat} (inside : entry.toNat + index < 65536) :
    (lineAddress entry index).toCode.value.toNat = 2 * (entry.toNat + index) := by
  have indexEq : (UInt16.ofInt (index : Int)).toNat = index := by
    show ((index : Int) % 2 ^ 16).toNat % 2 ^ 16 = index
    omega
  have wordEq : (entry + UInt16.ofInt (index : Int)).toNat = entry.toNat + index := by
    rw [UInt16.toNat_add, indexEq]
    exact Nat.mod_eq_of_lt inside
  unfold lineAddress InstructionAddress.toCode
  rw [UInt32.toNat_shiftLeft, UInt16.toNat_toUInt32, wordEq]
  show (entry.toNat + index) <<< 1 % 2 ^ 32 = _
  rw [Nat.shiftLeft_eq]
  omega

/-- Two bytes, one behind the other, are fetched as their word. -/
theorem fetch_eq {program : Archive} {address : InstructionAddress} {word : UInt16}
    (low : program.readByte address.toCode = .ok word.toNat.toUInt8)
    (fits : address.toCode.value.toNat + 1 < UInt32.size)
    (high : program.readByte ⟨address.toCode.value + 1⟩ = .ok (word.toNat / 256).toUInt8) :
    fetch program address = .ok word := by
  unfold fetch Archive.readWord
  rw [low, sum32_eq_ok fits]
  simp only [Outcome.ofExcept_ok, Outcome.bind_ok, high, Outcome.mapCause_ok, pure, Except.pure]
  rw [Bytes.word_of_little]

/-- A program is loaded where its assembled words are read from a word aligned
address on. -/
theorem loaded_of_code {program : Archive} {address : CodeAddress} {lines : List Line}
    {words : List UInt16} (even : address.value.toNat % 2 = 0)
    (below : address.value.toNat + (assemble words).length ≤ 0x20000)
    (decoded : words.map Instruction.decode? = lines.map fun line => some line.instruction)
    (reads : ∀ (index : Nat) (byte : UInt8) (place : CodeAddress),
      (assemble words)[index]? = some byte →
        place.value.toNat = address.value.toNat + index → program.readByte place = .ok byte) :
    Loaded program address.toInstruction.value lines := by
  intro index line present
  have wordAt : ∃ word, words[index]? = some word ∧
      Instruction.decode? word = some line.instruction := by
    have mapped := congrArg (fun answers => answers[index]?) decoded
    simp only [List.getElem?_map, present, Option.map_some] at mapped
    exact Option.map_eq_some_iff.mp mapped
  obtain ⟨word, wordAt, wordDecoded⟩ := wordAt
  obtain ⟨lowAt, highAt⟩ := getElem?_assemble wordAt
  have highLt := (List.getElem?_eq_some_iff.mp highAt).1
  have entryNat : address.toInstruction.value.toNat = address.value.toNat / 2 := by
    unfold CodeAddress.toInstruction
    rw [UInt32.toNat_toUInt16, UInt32.toNat_shiftRight]
    show address.value.toNat >>> 1 % 2 ^ 16 = _
    rw [Nat.shiftRight_eq_div_pow]
    omega
  have lineNat := @toNat_lineAddress address.toInstruction.value index (by rw [entryNat]; omega)
  have placeNat : (lineAddress address.toInstruction.value index).toCode.value.toNat =
      address.value.toNat + 2 * index := by omega
  have sizeEq : UInt32.size = 4294967296 := rfl
  have fits : (lineAddress address.toInstruction.value index).toCode.value.toNat + 1 <
      UInt32.size := by omega
  refine ⟨word, fetch_eq (reads _ _ _ lowAt placeNat) fits (reads _ _ _ highAt ?_), wordDecoded⟩
  show (_ + 1 : UInt32).toNat = _
  rw [UInt32.toNat_add]
  show (_ + 1) % 2 ^ 32 = _
  omega

end CodeCapsules.Machine

namespace CodeCapsules.Store

open Flash (Device Image WriteSession)
open Machine (Line callLines assemble Simulator)

/-! ## Records that were stored -/

/-- An append that stored its record found free space with room for it, and its
session succeeded. -/
theorem append_eq_stored {δ : Type} [Device δ] {container : Container} {header : Header}
    {code : Bytes} {device wrote : δ} {offset : Offset}
    (accepted : (append container header code).result device = (.ok ⟨offset, true⟩, wrote)) :
    header.length.toNat = headerSize + code.length ∧
      (find (Device.archive device) container header.length header.hash).outcome =
        .ok (.free offset) ∧
      header.length.toNat ≤ container.capacity - offset.value.toNat ∧
      (WriteSession.run container.index offset.value.toUInt32
        (recordChunks header code (container.capacity - offset.value.toNat))).result device =
          (.ok (), wrote) := by
  rcases result_append_cases container header code device with
    ⟨-, unstored⟩ | ⟨place, -, sized, found, fits, result⟩
  · rw [accepted] at unstored
    exact absurd rfl (unstored offset)
  · rw [accepted] at result
    obtain ⟨answer, left⟩ := Prod.mk.inj result
    cases session : (WriteSession.run container.index place.value.toUInt32
        (recordChunks header code (container.capacity - place.value.toNat))).result device with
    | mk outcome after =>
        rw [session] at answer left
        cases outcome with
        | error stop => exact nomatch answer
        | ok done =>
            have placeEq : offset = place := congrArg Appended.offset (Except.ok.inj answer)
            rw [placeEq, left]
            exact ⟨sized, found, fits, session⟩

theorem readByte_of_stored {container : Container} {header : Header} {code : Bytes}
    {image wrote : Image} {offset : Offset} {index : Nat} {byte : UInt8} {address : CodeAddress}
    (filed : image.file container.index = .ok container.entry)
    (accepted : (append container header code).result image = (.ok ⟨offset, true⟩, wrote))
    (present : code[index]? = some byte)
    (addressEq : address.value.toNat =
      container.base.value.toNat + offset.value.toNat + headerSize + index) :
    wrote.readByte address = .ok byte := by
  obtain ⟨sized, -, fits, session⟩ := append_eq_stored accepted
  obtain ⟨rest, chunksEq⟩ : ∃ rest, recordChunks header code
      (container.capacity - offset.value.toNat) = header.encode :: rest := by
    unfold recordChunks
    split
    · exact ⟨_, rfl⟩
    · exact ⟨_, rfl⟩
  have whole : (recordChunks header code (container.capacity - offset.value.toNat)).flatten.length ≤
      container.capacity - offset.value.toNat :=
    length_recordChunks_le ⟨header, code, sized⟩ _ fits
  have reachable : container.capacity ≤ 65535 := container.reachable
  have sizeEq : UInt32.size = 4294967296 := rfl
  have short : ∀ sent ∈ header.encode :: rest, sent.length < UInt32.size := by
    intro sent member
    have sentLe := List.Sublist.length_le (List.sublist_flatten_of_mem (chunksEq ▸ member))
    omega
  rw [chunksEq] at session
  obtain ⟨originLe, room, cursor, wroteEq⟩ := WriteSession.run_eq_ok filed short session
  rw [← chunksEq, flatten_recordChunks] at room wroteEq
  rw [UInt16.toNat_toUInt32] at originLe room wroteEq
  rw [wroteEq]
  apply Flash.Image.readByte_rewritten originLe room
    (by rw [addressEq, Nat.add_assoc]; rfl)
  rw [List.getElem?_append_right (by rw [Header.length_encode]; omega), Header.length_encode,
    Nat.add_sub_cancel_left, List.getElem?_append_left (List.getElem?_eq_some_iff.mp present).1]
  exact present

theorem searched_eq_free {length : UInt16} {hash : Hash} {last offset : Offset}
    {items : List Item} (free : searched length hash last items = .ok (.free offset)) :
    offset = last := by
  induction items with
  | nil => exact (Slot.free.inj (Except.ok.inj free)).symm
  | cons item rest inductionHypothesis =>
      cases item with
      | error stop => contradiction
      | ok record =>
          unfold searched at free
          split at free
          · exact absurd (Except.ok.inj free) (by simp)
          · exact inductionHypothesis free

/-- Free space starts behind the records that are listed. -/
theorem toNat_offset_of_free {archive : Flash.Archive} {container : Container} {length : UInt16}
    {hash : Hash} {offset : Offset} {listed : List Record}
    (listable : (records archive container).outcome = .ok listed)
    (free : (find archive container length hash).outcome = .ok (.free offset)) :
    offset.value.toNat = (container.firstPlace + lengthSum listed) % 65536 := by
  rw [find_outcome, (packed_of_records listable).2] at free
  rw [searched_eq_free free]
  exact UInt16.toNat_ofNat'

/-- Behind records of even length, code is stored at a word aligned address,
from which it is read. -/
theorem code_of_stored {container : Container} {header : Header} {code : Bytes}
    {image wrote : Image} {offset : Offset} {listed : List Record}
    (filed : image.file container.index = .ok container.entry)
    (listable : (records image.archive container).outcome = .ok listed)
    (even : ∀ record ∈ listed, record.header.length.toNat % 2 = 0)
    (below : container.base.value.toNat + container.capacity ≤ 0x20000)
    (accepted : (append container header code).result image = (.ok ⟨offset, true⟩, wrote)) :
    ∃ address, (container.codeAddress offset : Outcome Error CodeAddress) = .ok address ∧
      offset.value.toNat + headerSize ≤ container.capacity ∧
      address.value.toNat % 2 = 0 ∧ address.value.toNat + code.length ≤ 0x20000 ∧
      ∀ (index : Nat) (byte : UInt8) (place : CodeAddress), code[index]? = some byte →
        place.value.toNat = address.value.toNat + index → wrote.readByte place = .ok byte := by
  obtain ⟨sized, free, fits, -⟩ := append_eq_stored accepted
  have offsetNat := toNat_offset_of_free listable free
  have sumEven := even_lengthSum even
  have firstEven := container.even_firstPlace
  have sizeEq : UInt32.size = 4294967296 := rfl
  have headerEq : headerSize = 6 := rfl
  have addressFits : container.base.value.toNat + (offset.value.toNat + headerSize) <
      UInt32.size := by omega
  have addressNat := toNat_add_place _ _ addressFits
  refine ⟨⟨container.base.value + (offset.value.toNat + headerSize).toUInt32⟩, ?_, by omega, ?_,
    ?_, ?_⟩
  · unfold Container.codeAddress Container.addressOf
    rw [CodeCapsules.sum32_place addressFits]
    rfl
  · simp only [addressNat]
    omega
  · simp only [addressNat]
    omega
  · intro index byte place present placeEq
    apply readByte_of_stored filed accepted present
    simp only [addressNat] at placeEq
    rw [placeEq, ← Nat.add_assoc container.base.value.toNat]

theorem addCode_eq_stored {δ : Type} [Device δ] {store stored : Store δ} {hash : Hash}
    {code : Bytes} {offset : Offset}
    (accepted : (addCode hash code).result store = (.ok ⟨offset, true⟩, stored)) :
    ∃ header, (append store.container header code).result store.device =
        (.ok ⟨offset, true⟩, stored.device) ∧
      stored.container = store.container := by
  have left : (addCode hash code).result store =
      (((appendCode store.container hash code).result store.device).1,
        { store with
          device := ((appendCode store.container hash code).result store.device).2 }) := rfl
  rw [left, result_appendCode] at accepted
  obtain ⟨answer, storedEq⟩ := Prod.mk.inj accepted
  cases coded : Header.ofCode hash code with
  | error cause =>
      rw [coded] at answer
      exact nomatch answer
  | ok header =>
      rw [coded] at answer storedEq
      rw [← storedEq]
      exact ⟨header, Prod.ext answer rfl, rfl⟩

/-- Calling code whose place in the container is in order is a call of the
processor. -/
theorem result_invoke {archive : Flash.Archive} {container : Container} {offset : Offset}
    {address : CodeAddress} {width : ReturnWidth} {simulator : Simulator} {buffer : Bytes}
    (wide : width.size ≤ buffer.length)
    (inside : offset.value.toNat + headerSize ≤ container.capacity)
    (located : (container.codeAddress offset : Outcome Error CodeAddress) = .ok address) :
    (invoke archive container offset width).result ⟨simulator, buffer⟩ =
      (((Simulator.call archive address.toInstruction width).result ⟨simulator, buffer⟩).1.mapCause
          .execution,
        ((Simulator.call archive address.toInstruction width).result ⟨simulator, buffer⟩).2) := by
  unfold invoke
  rw [Operation.result_bind, Operation.result_device, Operation.continueWith_ok,
    if_neg (Nat.not_lt.mpr wide), if_neg (Nat.not_lt.mpr inside), Operation.result_bind,
    Operation.result_ofOutcome, located, Operation.continueWith_ok, Operation.result_bind,
    Operation.result_report, Operation.continueWith_ok, Operation.result_mapCause]

/-- A program that is assembled and stored behind records of even length, in a
container that ends at or below 128 KiB, is run as written: for every execution
that stays inside the program, a call on the processor answers, fills the return
buffer and leaves registers and step count as running its lines does. -/
theorem stored_program_runs_as_written (image : Image) (config : Config) (store : Store Image)
    (before : List Call) (listed : List Record) (hash : Hash) (lines : List Line)
    (width : ReturnWidth) (simulator : Simulator) (buffer : Bytes)
    (opened : (start image config).outcome = .ok store)
    (listable : (after before store).list.outcome = .ok listed)
    (even : ∀ record ∈ listed, record.header.length.toNat % 2 = 0)
    (below : store.container.base.value.toNat + store.container.capacity ≤ 0x20000)
    (wide : width.size ≤ buffer.length) :
    ∃ words, (lines.mapM Line.word : Outcome Error (List UInt16)) = .ok words ∧
      ∀ (offset : Offset) (stored : Store Image),
        (addCode hash (assemble words)).result (after before store) =
            (.ok ⟨offset, true⟩, stored) →
          ∃ address, stored.codeAddress offset = .ok address ∧
            ∀ ending, callLines lines address.toInstruction.value width
                simulator.stepLimit.toNat buffer = some ending →
              (stored.invokeWidth offset width).result ⟨simulator, buffer⟩ =
                (ending.outcome.mapCause .execution,
                  ⟨⟨ending.frame.file, simulator.stepLimit, ending.steps⟩,
                    ending.frame.buffer⟩) := by
  obtain ⟨words, wordsEq, decoded⟩ := Line.exists_words (ε := Error) lines
  refine ⟨words, wordsEq, ?_⟩
  intro offset stored accepted
  obtain ⟨located, storeEq⟩ := eq_of_start opened
  have filedFirst : store.device.file store.container.index = .ok store.container.entry := by
    rw [storeEq]
    exact file_of_locate located
  obtain ⟨containerEq, filed⟩ :=
    keeps_after (Flash.Image.keeps_file _ _) before store filedFirst
  unfold Store.list at listable
  rw [containerEq] at listable
  obtain ⟨header, appended, storedContainer⟩ := addCode_eq_stored accepted
  rw [containerEq] at appended storedContainer
  obtain ⟨address, codeAddress, inside, aligned, codeBelow, reads⟩ :=
    code_of_stored filed listable even below appended
  have loaded : Machine.Loaded stored.device.archive address.toInstruction.value lines :=
    Machine.loaded_of_code aligned codeBelow decoded reads
  refine ⟨address, ?_, ?_⟩
  · unfold Store.codeAddress
    rw [storedContainer]
    exact codeAddress
  · intro ending called
    have call := Machine.result_call loaded width simulator buffer called
    unfold Store.invokeWidth
    rw [storedContainer, result_invoke wide inside codeAddress]
    change (((Simulator.call stored.device.archive _ width).result _).1.mapCause _,
      ((Simulator.call stored.device.archive _ width).result _).2) = _
    rw [call]

/-- A program that calls a part of its own, which stores a constant through `Y`
and then loads another. -/
def callingLines (target : Fin 16) : List Line :=
  [.call 1 (by decide) (by decide), .ret, .loadImmediate target 0x42,
    .storeAdvance (Machine.upper target), .loadImmediate target 0x17, .ret]

/-- The words of `callingLines` with register 24 as the target. -/
def callingWords : List UInt16 := [0xD001, 0x9508, 0xE482, 0x9389, 0xE187, 0x9508]

/-- A capsule of eight bytes in an erased container. -/
def evenCalls : List Call := [.erase, .appendCode ⟨1, 1, 1, 1⟩ [0, 0]]

/-- The store of `wideImage` with `callingLines` behind a capsule of eight
bytes. -/
def callingStore : Store Image :=
  ((addCode ⟨2, 2, 2, 2⟩ (assemble callingWords)).result (after evenCalls wideStore)).2

/-- The stored byte is the first of the buffer, and the result is delivered behind
it, to where `Y` was moved. -/
theorem stored_program_runs_behind_even_record :
    (start wideImage .standard).outcome = .ok wideStore ∧
      (after evenCalls wideStore).list.outcome = .ok [⟨⟨0⟩, ⟨8, ⟨1, 1, 1, 1⟩⟩⟩] ∧
      (∀ record ∈ [(⟨⟨0⟩, ⟨8, ⟨1, 1, 1, 1⟩⟩⟩ : Record)], record.header.length.toNat % 2 = 0) ∧
      wideStore.container.base.value.toNat + wideStore.container.capacity ≤ 0x20000 ∧
      ReturnWidth.word.size ≤ [(0xA0 : UInt8), 0xA1, 0xA2, 0xA3].length ∧
      (addCode ⟨2, 2, 2, 2⟩ (assemble callingWords)).result (after evenCalls wideStore) =
        (.ok ⟨⟨8⟩, true⟩, callingStore) ∧
      ∃ ending, callLines (callingLines 8) 0x187 .word 100 [0xA0, 0xA1, 0xA2, 0xA3] = some ending ∧
        ending.outcome = .ok () ∧ ending.frame.buffer = [0x42, 0x17, 0x00, 0xA3] ∧
        ending.steps = 6 ∧
        (callingStore.invokeWidth ⟨8⟩ .word).result ⟨.start 100, [0xA0, 0xA1, 0xA2, 0xA3]⟩ =
          (.ok (), ⟨⟨ending.frame.file, 100, 6⟩, [0x42, 0x17, 0x00, 0xA3]⟩) := by
  have opened : (start wideImage .standard).outcome = .ok wideStore := by rfl
  have listable : (after evenCalls wideStore).list.outcome =
      .ok [⟨⟨0⟩, ⟨8, ⟨1, 1, 1, 1⟩⟩⟩] := by decide +kernel
  have even : ∀ record ∈ [(⟨⟨0⟩, ⟨8, ⟨1, 1, 1, 1⟩⟩⟩ : Record)],
      record.header.length.toNat % 2 = 0 := by decide
  have below : wideStore.container.base.value.toNat + wideStore.container.capacity ≤ 0x20000 := by
    decide
  have wide : ReturnWidth.word.size ≤ [(0xA0 : UInt8), 0xA1, 0xA2, 0xA3].length := by decide
  have accepted : (addCode ⟨2, 2, 2, 2⟩ (assemble callingWords)).result
      (after evenCalls wideStore) = (.ok ⟨⟨8⟩, true⟩, callingStore) := by
    refine Prod.ext ?_ rfl
    decide +kernel
  obtain ⟨words, wordsEq, runs⟩ := stored_program_runs_as_written wideImage .standard wideStore
    evenCalls _ ⟨2, 2, 2, 2⟩ (callingLines 8) .word (.start 100) [0xA0, 0xA1, 0xA2, 0xA3] opened
    listable even below wide
  have assembled : ((callingLines 8).mapM Line.word : Outcome Error (List UInt16)) =
      .ok callingWords := by rfl
  rw [assembled] at wordsEq
  rw [← Except.ok.inj wordsEq] at runs
  obtain ⟨address, located, runsFrom⟩ := runs ⟨8⟩ callingStore accepted
  have addressEq : (⟨0x30E⟩ : CodeAddress) = address := by
    have there : callingStore.codeAddress ⟨8⟩ = .ok ⟨0x30E⟩ := by decide +kernel
    exact Except.ok.inj (there.symm.trans located)
  rw [← addressEq] at runsFrom
  have ends : (callLines (callingLines 8) 0x187 .word 100 [0xA0, 0xA1, 0xA2, 0xA3]).map
      (fun ending => (ending.outcome, ending.frame.buffer, ending.steps)) =
        some (.ok (), [0x42, 0x17, 0x00, 0xA3], 6) := by decide +kernel
  obtain ⟨ending, called, endsEq⟩ := Option.map_eq_some_iff.mp ends
  obtain ⟨outcomeEq, restEq⟩ := Prod.mk.inj endsEq
  obtain ⟨bufferEq, stepsEq⟩ := Prod.mk.inj restEq
  have invoked := runsFrom ending called
  rw [outcomeEq, bufferEq, stepsEq] at invoked
  exact ⟨opened, listable, even, below, wide, accepted, ending, called, outcomeEq, bufferEq,
    stepsEq, invoked⟩

end CodeCapsules.Store
