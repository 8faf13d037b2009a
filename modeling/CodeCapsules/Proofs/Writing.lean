import CodeCapsules.Proofs.Overlay
import CodeCapsules.Proofs.Search
import CodeCapsules.Proofs.Session

/-!
Contract: what an append and an erase answer, and what they leave in the image
behind their device.

Owns:
- both operations on any device, by the answers of the lookup and of the write
  session;
- both operations on an idle image, with their exact results.
-/

namespace CodeCapsules.Store

open Flash (Device Image WriteSession)

section Results

variable {δ : Type} [Device δ]

/-- Writing a record at a free offset: one session, if the record fits. -/
theorem result_appendAt (container : Container) (header : Header) (code : Bytes)
    (offset : Offset) (device : δ) :
    (appendAt container header code offset).result device =
      if container.capacity - offset.value.toNat < header.length.toNat then
        (Outcome.refuse (.containerFull offset header.length
          (container.capacity - offset.value.toNat)), device)
      else
        let session := (WriteSession.run container.index offset.value.toUInt32
          (recordChunks header code (container.capacity - offset.value.toNat))).result device
        ((session.1.mapCause .flash).map fun _ => ⟨offset, true⟩, session.2) := by
  unfold appendAt
  by_cases full : container.capacity - offset.value.toNat < header.length.toNat
  · simp only [if_pos full, Operation.result_refuse]
  · simp only [if_neg full, Operation.result_bind, Operation.result_mapCause]
    generalize (WriteSession.run container.index offset.value.toUInt32
      (recordChunks header code (container.capacity - offset.value.toNat))).result device = session
    obtain ⟨outcome, after⟩ := session
    cases outcome with
    | ok done => rfl
    | error stop => rfl

/-- An append: the checks of the header, then the lookup, then the record. -/
theorem result_append (container : Container) (header : Header) (code : Bytes) (device : δ) :
    (append container header code).result device =
      match header.validate with
      | .error cause => (Outcome.refuse cause, device)
      | .ok () =>
          if header.length.toNat ≠ headerSize + code.length then
            (Outcome.refuse (.lengthMismatch header.length code.length), device)
          else
            match (find (Device.archive device) container header.length header.hash).outcome with
            | .error stop => (.error stop, device)
            | .ok (.found offset) => (.ok ⟨offset, false⟩, device)
            | .ok (.free offset) => (appendAt container header code offset).result device := by
  unfold append
  cases header.validate with
  | error cause => simp
  | ok done =>
      simp only [Operation.result_bind, Operation.result_ofOutcome, Outcome.ofExcept_ok,
        Operation.continueWith_ok]
      by_cases mismatch : header.length.toNat ≠ headerSize + code.length
      · simp only [if_pos mismatch, Operation.result_refuse]
      · simp only [if_neg mismatch, Operation.result_bind, Operation.result_device,
          Operation.continueWith_ok, Operation.result_ofLogged]
        cases (find (Device.archive device) container header.length header.hash).outcome with
        | error stop => rfl
        | ok slot =>
            cases slot with
            | found offset => rfl
            | free offset => rfl

/-- An append of a capsule that is found writes nothing. -/
theorem result_append_of_found {container : Container} {header : Header} {code : Bytes}
    {device : δ} {offset : Offset} (valid : header.validate = .ok ())
    (sized : header.length.toNat = headerSize + code.length)
    (found : (find (Device.archive device) container header.length header.hash).outcome =
      .ok (.found offset)) :
    (append container header code).result device = (.ok ⟨offset, false⟩, device) := by
  rw [result_append, valid]
  simp only
  rw [if_neg (not_not_intro sized), found]

theorem result_appendCode (container : Container) (hash : Hash) (code : Bytes) (device : δ) :
    (appendCode container hash code).result device =
      match Header.ofCode hash code with
      | .error cause => (Outcome.refuse cause, device)
      | .ok header => (append container header code).result device := by
  unfold appendCode
  cases Header.ofCode hash code with
  | error cause => simp
  | ok header => simp

theorem result_erase (container : Container) (device : δ) :
    (erase container).result device =
      (((WriteSession.run container.index 0 [eraseMark]).result device).1.mapCause .flash,
        ((WriteSession.run container.index 0 [eraseMark]).result device).2) := by
  unfold erase
  rw [Operation.result_bind, Operation.result_mapCause]
  generalize (WriteSession.run container.index 0 [eraseMark]).result device = session
  obtain ⟨outcome, after⟩ := session
  cases outcome with
  | ok done => rfl
  | error stop => rfl

/-- What an append can do: it leaves its device and stores nothing, or it is one
session that writes the record into free space with room for it. -/
theorem result_append_cases (container : Container) (header : Header) (code : Bytes)
    (device : δ) :
    (((append container header code).result device).2 = device ∧
        ∀ offset, ((append container header code).result device).1 ≠ .ok ⟨offset, true⟩) ∨
      ∃ offset, header.validate = .ok () ∧
        header.length.toNat = headerSize + code.length ∧
        (find (Device.archive device) container header.length header.hash).outcome =
          .ok (.free offset) ∧
        header.length.toNat ≤ container.capacity - offset.value.toNat ∧
        (append container header code).result device =
          let session := (WriteSession.run container.index offset.value.toUInt32
            (recordChunks header code (container.capacity - offset.value.toNat))).result device
          ((session.1.mapCause .flash).map fun _ => ⟨offset, true⟩, session.2) := by
  rw [result_append]
  cases valid : header.validate with
  | error cause => exact .inl ⟨rfl, fun _ => nofun⟩
  | ok done =>
      simp only
      by_cases sized : header.length.toNat = headerSize + code.length
      · rw [if_neg (not_not_intro sized)]
        cases found :
            (find (Device.archive device) container header.length header.hash).outcome with
        | error stop => exact .inl ⟨rfl, fun _ => nofun⟩
        | ok slot =>
            cases slot with
            | found offset => exact .inl ⟨rfl, fun _ => by simp⟩
            | free offset =>
                simp only
                rw [result_appendAt]
                by_cases full :
                    container.capacity - offset.value.toNat < header.length.toNat
                · rw [if_pos full]
                  exact .inl ⟨rfl, fun _ => nofun⟩
                · rw [if_neg full]
                  exact .inr ⟨offset, trivial, sized, rfl, by omega, rfl⟩
      · rw [if_pos sized]
        exact .inl ⟨rfl, fun _ => nofun⟩

end Results

/-! ## On an idle image -/

section OnImage

variable {image : Image} {container : Container} {capsules : List Capsule}

/-- The byte strings of a record start inside memory, unless one of them is an
empty code behind a header that ends with memory. -/
theorem lands_recordChunks (memoryEnd address available : Nat) (capsule : Capsule)
    (fits : capsule.size ≤ available) (inside : address + available ≤ memoryEnd)
    (before : capsule.code = [] → address + headerSize ≠ memoryEnd) :
    WriteSession.Lands memoryEnd address
      (recordChunks capsule.header capsule.code available) := by
  have sized := capsule.sized
  unfold Capsule.size at fits
  have headerLength := capsule.header.length_encode
  unfold headerSize at sized before headerLength
  have codeStart : address + capsule.header.encode.length < memoryEnd := by
    rw [headerLength]
    cases codeEq : capsule.code with
    | nil =>
        have apart := before codeEq
        rw [codeEq, List.length_nil] at sized
        omega
    | cons byte rest =>
        rw [codeEq, List.length_cons] at sized
        omega
  unfold recordChunks
  split
  · rename_i room
    unfold terminatorSize at room
    exact ⟨by omega, codeStart, by omega, trivial⟩
  · exact ⟨by omega, codeStart, trivial⟩

/-- The answer to a record that fits and is laid at `place`. It is refused only
where an empty code would have to be written behind memory. -/
def laidAnswer (container : Container) (memoryEnd place : Nat) (code : Bytes) :
    Outcome Error Appended :=
  if code = [] ∧ container.base.value.toNat + (place + headerSize) = memoryEnd then
    Outcome.refuse (.flash (.addressOutOfRange
      ⟨container.base.value + (place + headerSize).toUInt32⟩))
  else .ok ⟨⟨place.toUInt16⟩, true⟩

/-- A record that fits is laid into the container, whatever the answer is. -/
theorem result_appendAt_of_fits {place : Nat}
    (mounted : image.Mounts container.index container.entry) (idle : image.cursor = none)
    (capsule : Capsule) (fits : place + capsule.size ≤ container.capacity) :
    (appendAt container capsule.header capsule.code ⟨place.toUInt16⟩).result image =
      (laidAnswer container image.memoryEnd place capsule.code,
        image.written container.entry place
          (recordChunks capsule.header capsule.code (container.capacity - place)).flatten
          none) := by
  have reachable : container.capacity ≤ 65535 := container.reachable
  have finishLe : container.base.value.toNat + container.capacity ≤ image.memoryEnd :=
    mounted.holds.2
  have chunksLe := length_recordChunks_le capsule (container.capacity - place) (by omega)
  have sized := capsule.sized
  have placeLt : place < 65536 := by omega
  rw [result_appendAt]
  simp only [toNat_toUInt16 placeLt, toUInt32_toUInt16 placeLt]
  unfold Capsule.size at fits
  rw [if_neg (by omega)]
  unfold laidAnswer
  by_cases slipped :
      capsule.code = [] ∧ container.base.value.toNat + (place + headerSize) = image.memoryEnd
  · obtain ⟨codeEq, atEnd⟩ := slipped
    have encodeLength := capsule.header.length_encode
    rw [codeEq, List.length_nil] at sized
    have chunksEq : recordChunks capsule.header capsule.code (container.capacity - place) =
        [capsule.header.encode, []] := by
      unfold recordChunks terminatorSize
      rw [if_neg (by omega), codeEq]
    have room : place + capsule.header.encode.length ≤ container.entry.size.toNat := by
      rw [encodeLength]
      unfold Container.capacity at fits
      omega
    have stray := WriteSession.result_run_of_stray mounted idle
      (by rw [← List.length_pos_iff, encodeLength]; decide) room
      (by rw [encodeLength]; exact atEnd)
    rw [encodeLength] at stray
    rw [if_pos ⟨codeEq, atEnd⟩, chunksEq, stray]
    simp only [List.flatten_cons, List.flatten_nil, List.append_nil]
    rfl
  · have lands := lands_recordChunks image.memoryEnd (container.base.value.toNat + place)
      (container.capacity - place) capsule (by unfold Capsule.size; omega) (by omega)
      (fun codeEq atEnd => slipped ⟨codeEq, by omega⟩)
    have wrote := WriteSession.result_run_of_lands mounted idle
      (by unfold Container.capacity at chunksLe fits ⊢; omega) lands
    rw [if_neg slipped, wrote]
    rfl

/-- An erase lays its mark over the first bytes. -/
theorem result_erase_of_room (mounted : image.Mounts container.index container.entry)
    (idle : image.cursor = none) (room : eraseMark.length ≤ container.capacity) :
    (erase container).result image =
      (.ok (), image.written container.entry 0 eraseMark none) := by
  have finishLe := mounted.holds.2
  have markLength : eraseMark.length = 3 := rfl
  have flattened : [eraseMark].flatten = eraseMark := rfl
  unfold Container.capacity at room
  have wrote : (WriteSession.run container.index (0 : Nat).toUInt32 [eraseMark]).result image =
      (.ok (), image.written container.entry 0 [eraseMark].flatten none) :=
    WriteSession.result_run_of_lands mounted idle (by rw [flattened]; omega) ⟨by omega, trivial⟩
  rw [flattened] at wrote
  rw [result_erase, show (0 : UInt32) = (0 : Nat).toUInt32 from rfl, wrote]
  rfl

end OnImage

end CodeCapsules.Store
