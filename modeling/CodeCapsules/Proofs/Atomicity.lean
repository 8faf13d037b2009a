import CodeCapsules.Proofs.Recording
import CodeCapsules.Proofs.Refinement

/-!
Contract: what is found in a container after an append on a device that may
refuse calls.

Owns:
- `walked`, all that a walk through the image behind a device yields;
- `Leftover`, a record of which the header reached the image;
- `Leaves`, what an append leaves, by the byte strings that were accepted.

Main statement: if no byte of an append reached the image, memory and the walk
are as they were. Otherwise its header did, and the header alone already makes a
record, which later appends of the same capsule then find.
-/

namespace CodeCapsules.Store

open Flash (Backed Device FaultPlan FaultyDevice Image WriteSession)

section Leftovers

variable {δ : Type} [Device δ] [Backed δ]

/-- The items and the end of the walk through the image behind a device. -/
def walked (container : Container) (device : δ) : List Item × Scan :=
  (Scan.start container).collect (Backed.image device).archive

/-- What an append leaves when its header and the byte strings `sent` behind it
reached the image: a capsule behind those that were there. Its code is the one
that was sent, or what stood there before. -/
structure Leftover (container : Container) (header : Header) (code : Bytes) (device after : δ)
    (capsules : List Capsule) (capsule : Capsule) (sent : List Bytes) : Prop where
  contained : Contains ((Backed.image device).region container.entry) container.firstPlace capsules
  began : header.encode :: sent <+: recordChunks header code
    (container.capacity - (container.firstPlace + totalSize capsules))
  headed : capsule.header = header
  coded : capsule.code = if sent = [] then
      (((Backed.image device).region container.entry).drop
        (container.firstPlace + totalSize capsules + headerSize)).take code.length
    else code
  spelled : Spells ((Backed.image after).region container.entry) container.firstPlace
    (capsules ++ [capsule])
  listed : ∃ more, (walked container after).1 = (walked container device).1 ++
      .ok ⟨(walked container device).2.offset, header⟩ :: more ∧
    (header.encode :: sent = recordChunks header code
      (container.capacity - (container.firstPlace + totalSize capsules)) → more = [])
  retried : (append container header code).result (Backed.image after) =
    (.ok ⟨(walked container device).2.offset, false⟩, Backed.image after)

/-- The code of a capsule of which the header and maybe more reached the
image. -/
theorem take_sent {header : Header} {code before : Bytes} {available : Nat} {sent : List Bytes}
    (sized : header.length.toNat = headerSize + code.length)
    (began : header.encode :: sent <+: recordChunks header code available) (start : Nat) :
    (sent.flatten ++ before.drop (start + (header.encode ++ sent.flatten).length)).take
        (header.length.toNat - headerSize) =
      if sent = [] then (before.drop (start + headerSize)).take code.length else code := by
  have codeLength : header.length.toNat - headerSize = code.length := by omega
  rw [codeLength]
  rcases (eq_of_prefix_recordChunks began).2 with none | ⟨rest, codeSent⟩
  · rw [if_pos none, none]
    simp
  · rw [if_neg (by simp [codeSent]), codeSent, List.flatten_cons, List.append_assoc,
      List.take_left]

/-- The walk through an image whose container contains capsules. -/
theorem walked_of_contains {device : δ} {container : Container} {capsules : List Capsule}
    (mounted : (Backed.image device).Mounts container.index container.entry)
    (contained : Contains ((Backed.image device).region container.entry) container.firstPlace
      capsules) :
    walked container device = ((recordsAt container.firstPlace capsules).map .ok,
      endedAt container (container.firstPlace + totalSize capsules)) :=
  collect_of_contains (shows_region mounted.holds mounted.addressable) contained

/-- Once the header of an append is in the image, its record is there. -/
theorem exists_leftover {container : Container} {header : Header} {code : Bytes}
    {device after : δ} {capsules : List Capsule} {offset : Offset} {sent : List Bytes}
    {cursor : Option Flash.Cursor}
    (mounted : (Backed.image device).Mounts container.index container.entry)
    (contained : Contains ((Backed.image device).region container.entry) container.firstPlace
      capsules)
    (valid : header.validate = .ok ())
    (sized : header.length.toNat = headerSize + code.length)
    (free : slotAmong container.firstPlace capsules header.length header.hash = .free offset)
    (fits : container.firstPlace + totalSize capsules + header.length.toNat ≤ container.capacity)
    (began : header.encode :: sent <+: recordChunks header code
      (container.capacity - (container.firstPlace + totalSize capsules)))
    (left : Backed.image after = (Backed.image device).written container.entry
      (container.firstPlace + totalSize capsules) (header.encode :: sent).flatten cursor) :
    ∃ capsule, Leftover container header code device after capsules capsule sent := by
  have afterMounted : (Backed.image after).Mounts container.index container.entry := by
    rw [left]
    exact mounted.written _ _ _ _
  have shows := shows_region mounted.holds mounted.addressable
  have afterShows := shows_region afterMounted.holds afterMounted.addressable
  have size := shows.size
  have whole := length_recordChunks_le ⟨header, code, sized⟩
    (container.capacity - (container.firstPlace + totalSize capsules))
    (by show header.length.toNat ≤ _; omega)
  have sentLe := Nat.le_trans (length_flatten_le_of_begins began) whole
  have sentFits : container.firstPlace + totalSize capsules +
      (header.encode ++ sent.flatten).length ≤
        ((Backed.image device).region container.entry).length := by
    rw [List.flatten_cons] at sentLe
    rw [size]
    omega
  have region : (Backed.image after).region container.entry =
      Bytes.splice ((Backed.image device).region container.entry)
        (container.firstPlace + totalSize capsules) (header.encode ++ sent.flatten) := by
    rw [left, Flash.Image.region_written mounted.holds
      (by unfold Container.capacity at sentLe fits; omega), List.flatten_cons]
  obtain ⟨capsule, headed, coded, stands⟩ := exists_capsule_of_splice sentFits (by omega)
    (by rw [size]; exact fits)
  have spelled : Spells ((Backed.image after).region container.entry) container.firstPlace
      (capsules ++ [capsule]) := by
    rw [region]
    exact spells_append.mpr ⟨contained.spelled.splice (Nat.le_refl _) sentFits, stands⟩
  have before := walked_of_contains mounted contained
  have found := find_of_spells_fresh afterShows spelled
    (by rw [headed]; exact header_ne_of_slotAmong_free free)
  rw [headed] at found
  refine ⟨capsule, contained, began, headed, ?_, spelled, ?_, ?_⟩
  · rw [coded, take_sent sized began]
  · refine ⟨((walkAt container (container.firstPlace + totalSize (capsules ++ [capsule]))).collect
      (Backed.image after).archive).1, ?_, ?_⟩
    · rw [before]
      show ((walkAt container container.firstPlace).collect (Backed.image after).archive).1 = _
      rw [collect_of_spells afterShows spelled, recordsAt_append, List.map_append,
        List.append_assoc]
      simp [recordsAt, headed, Scan.offset]
    · intro all
      have added := contained.splice_record ⟨header, code, sized⟩
        (by rw [size]; exact fits)
      rw [size, ← all, List.flatten_cons, ← region] at added
      have ended := added.ended
      have sizeEq : totalSize (capsules ++ [capsule]) =
          totalSize (capsules ++ [⟨header, code, sized⟩]) := by
        simp [Capsule.size, headed]
      rw [← sizeEq] at ended
      rw [collect_of_ends afterShows ended]
  · rw [before]
    exact result_append_of_found valid sized found

/-- What an append may leave, given the byte strings of it that were accepted:
memory and the walk as they were if there are none, and otherwise a record
behind the others. -/
def Leaves (container : Container) (header : Header) (code : Bytes) (device after : δ)
    (accepted : List Bytes) : Prop :=
  (accepted = [] ∧ (Backed.image after).memory = (Backed.image device).memory ∧
      walked container after = walked container device) ∨
    ∃ capsules capsule sent, accepted = header.encode :: sent ∧
      Leftover container header code device after capsules capsule sent

/-- As much of a record as gets through stands in the image at its offset. -/
theorem run_record_image {device : δ} {container : Container} {header : Header} {code : Bytes}
    {offset : Offset} (mounted : (Backed.image device).Mounts container.index container.entry)
    (sized : header.length.toNat = headerSize + code.length)
    (fits : header.length.toNat ≤ container.capacity - offset.value.toNat) :
    let chunks := recordChunks header code (container.capacity - offset.value.toNat)
    ∃ cursor, Backed.image ((WriteSession.run container.index offset.value.toUInt32
        chunks).result device).2 =
      (Backed.image device).written container.entry offset.value.toNat
        (WriteSession.reached container.index offset.value.toUInt32 chunks device).flatten
        cursor := by
  intro chunks
  have chunksLe : chunks.flatten.length ≤ container.capacity - offset.value.toNat :=
    length_recordChunks_le ⟨header, code, sized⟩ _ fits
  have chunksFit : offset.value.toUInt32.toNat + chunks.flatten.length ≤
      container.entry.size.toNat := by
    rw [UInt16.toNat_toUInt32]
    unfold headerSize at sized
    unfold Container.capacity at chunksLe fits
    omega
  obtain ⟨cursor, left, -⟩ := WriteSession.run_image device chunks mounted chunksFit
  exact ⟨cursor, left⟩

/-- An append leaves nothing or a record on every device whose lookups, if they
answer, answer as the image. -/
theorem leaves_append_of_find {device : δ} {container : Container} (header : Header) (code : Bytes)
    (mounted : (Backed.image device).Mounts container.index container.entry)
    (reads : ∀ slot,
      (find (Device.archive device) container header.length header.hash).outcome = .ok slot →
        (find (Backed.image device).archive container header.length header.hash).outcome =
          .ok slot) :
    Leaves container header code device ((append container header code).result device).2
      (Flash.accepted (append container header code) device) := by
  have shows := shows_region mounted.holds mounted.addressable
  rcases append_accepts container header code device with
    ⟨none, same⟩ | ⟨offset, valid, sized, found, fits, accepted, wrote⟩
  · rw [same]
    exact .inl ⟨none, rfl, rfl⟩
  · obtain ⟨capsules, contained, free⟩ := contains_of_find_free shows (reads _ found)
    have place : offset.value.toNat = container.firstPlace + totalSize capsules := by
      rw [offset_of_slotAmong_free free]
      exact toNat_toUInt16 (shows.finish_lt contained.spelled)
    obtain ⟨cursor, left⟩ := run_record_image mounted sized fits
    have began := WriteSession.reached_begins container.index offset.value.toUInt32
      (recordChunks header code (container.capacity - offset.value.toNat)) device
    rw [← wrote, ← accepted] at left
    rw [← accepted] at began
    rw [place] at began left fits
    have positive : 0 < header.length.toNat := by
      unfold headerSize at sized
      omega
    cases acceptedEq : Flash.accepted (append container header code) device with
    | nil =>
        rw [acceptedEq] at left
        refine .inl ⟨rfl, ?_, ?_⟩
        · rw [left]
          rfl
        · unfold walked
          rw [left]
          rfl
    | cons chunk sent =>
        rw [acceptedEq] at began left
        obtain rfl := (eq_of_prefix_recordChunks began).1
        obtain ⟨capsule, leftover⟩ := exists_leftover mounted contained valid sized free
          (by omega) began left
        exact .inr ⟨capsules, capsule, sent, rfl, leftover⟩

theorem leaves_append {device : δ} {container : Container}
    (mounted : (Backed.image device).Mounts container.index container.entry)
    (reads : Device.archive device = (Backed.image device).archive) (header : Header)
    (code : Bytes) :
    Leaves container header code device ((append container header code).result device).2
      (Flash.accepted (append container header code) device) := by
  apply leaves_append_of_find header code mounted
  intro slot found
  rw [reads] at found
  exact found

/-- On a device that refuses whatever it likes, an append of which no byte was
accepted leaves memory and the walk as they were. Otherwise its header was
accepted, whatever was refused behind it: the walk goes on from where it ended
with the new record, and the same append on the image then answers that the
capsule is stored there. Its code is complete if the write of the code was
accepted too, and otherwise is what stood there before. -/
theorem append_leaves_record_or_nothing (device : δ) (type : FileType) (container : Container)
    (valid : (Backed.image device).validate = .ok ())
    (addressable : (Backed.image device).memoryEnd < UInt32.size)
    (reads : Device.archive device = (Backed.image device).archive)
    (located : (Container.locate (Device.archive device) type).outcome = .ok container) :
    (∀ (header : Header) (code : Bytes),
      Leaves container header code device ((append container header code).result device).2
        (Flash.accepted (append container header code) device)) ∧
    (∀ (hash : Hash) (code : Bytes),
      Leaves container ⟨(code.length + headerSize).toUInt16, hash⟩ code device
        ((appendCode container hash code).result device).2
        (Flash.accepted (appendCode container hash code) device)) := by
  have mounted : (Backed.image device).Mounts container.index container.entry := by
    rw [reads] at located
    exact mounts_of_locate valid addressable located
  refine ⟨leaves_append mounted reads, ?_⟩
  intro hash code
  unfold Flash.accepted
  rw [result_appendCode, result_appendCode]
  unfold Header.ofCode
  by_cases short : code.length + headerSize ≤ 65535
  · rw [if_pos short]
    exact leaves_append mounted reads _ code
  · rw [if_neg short]
    exact .inl ⟨rfl, rfl, rfl⟩

end Leftovers

/-- An erased container of sixteen bytes. -/
def blankImage : Image :=
  ⟨0x300, Array.replicate 16 0, [⟨⟨0x300⟩, 16, .capsuleBuffer⟩], none⟩

def blankContainer : Container := ⟨0, ⟨⟨0x300⟩, 16, .capsuleBuffer⟩, by decide⟩

/-- `blankImage` behind a device that refuses the second write. -/
def secondWriteRefused : FaultyDevice := .start blankImage { FaultPlan.none with writes := [2] }

theorem append_leaves_record_behind_second_write :
    (Backed.image secondWriteRefused).validate = .ok () ∧
      (Backed.image secondWriteRefused).memoryEnd < UInt32.size ∧
      Device.archive secondWriteRefused = (Backed.image secondWriteRefused).archive ∧
      (Container.locate (Device.archive secondWriteRefused) .capsuleBuffer).outcome =
        .ok blankContainer ∧
      Flash.accepted (appendCode blankContainer ⟨1, 2, 3, 4⟩ [0x08, 0x95]) secondWriteRefused =
        [[8, 0, 1, 2, 3, 4]] ∧
      ∃ capsules capsule, Leftover blankContainer ⟨8, ⟨1, 2, 3, 4⟩⟩ [0x08, 0x95]
        secondWriteRefused
        ((appendCode blankContainer ⟨1, 2, 3, 4⟩ [0x08, 0x95]).result secondWriteRefused).2
        capsules capsule [] := by
  have valid : (Backed.image secondWriteRefused).validate = .ok () := by decide
  have addressable : (Backed.image secondWriteRefused).memoryEnd < UInt32.size := by decide
  have reads : Device.archive secondWriteRefused =
      (Backed.image secondWriteRefused).archive := rfl
  have located : (Container.locate (Device.archive secondWriteRefused)
      .capsuleBuffer).outcome = .ok blankContainer := rfl
  have accepted : Flash.accepted (appendCode blankContainer ⟨1, 2, 3, 4⟩ [0x08, 0x95])
      secondWriteRefused = [[8, 0, 1, 2, 3, 4]] := by decide +kernel
  have leaves := (append_leaves_record_or_nothing secondWriteRefused .capsuleBuffer
    blankContainer valid addressable reads located).2 ⟨1, 2, 3, 4⟩ [0x08, 0x95]
  rw [accepted] at leaves
  rcases leaves with ⟨none, -⟩ | ⟨capsules, capsule, sent, acceptedEq, leftover⟩
  · contradiction
  · rw [← (List.cons.inj acceptedEq).2] at leftover
    exact ⟨valid, addressable, reads, located, accepted, capsules, capsule, leftover⟩

/-- An append whose second write is refused fails, but a walk then yields its
record, the code of which was never written, and the same append answers that
the capsule is stored. -/
theorem refused_append_is_listed :
    (Backed.image secondWriteRefused).validate = .ok () ∧
      (Backed.image secondWriteRefused).memoryEnd < UInt32.size ∧
      (Container.locate (Device.archive secondWriteRefused) .capsuleBuffer).outcome =
        .ok blankContainer ∧
      ((appendCode blankContainer ⟨1, 2, 3, 4⟩ [0x08, 0x95]).result secondWriteRefused).1 =
        Outcome.refuse (.flash (.serialization (.injected .write))) ∧
      (walked blankContainer secondWriteRefused).1 = [] ∧
      (walked blankContainer ((appendCode blankContainer ⟨1, 2, 3, 4⟩
        [0x08, 0x95]).result secondWriteRefused).2).1 = [.ok ⟨⟨0⟩, ⟨8, ⟨1, 2, 3, 4⟩⟩⟩] ∧
      ((appendCode blankContainer ⟨1, 2, 3, 4⟩ [0x08, 0x95]).result
        ((appendCode blankContainer ⟨1, 2, 3, 4⟩ [0x08, 0x95]).result secondWriteRefused).2).1 =
          .ok ⟨⟨0⟩, false⟩ ∧
      ((Backed.image ((appendCode blankContainer ⟨1, 2, 3, 4⟩
        [0x08, 0x95]).result secondWriteRefused).2).region blankContainer.entry).take 8 =
          [8, 0, 1, 2, 3, 4, 0, 0] := by
  refine ⟨by decide, by decide, rfl, ?_, ?_, ?_, ?_, ?_⟩
  all_goals decide +kernel

end CodeCapsules.Store
