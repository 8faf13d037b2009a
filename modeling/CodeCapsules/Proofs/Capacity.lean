import CodeCapsules.Proofs.Refinement

/-!
Contract: which appends of new code find room.

Owns:
- the answer of a log to code that it does not hold;
- the answer of a store on an idle image, with the one refusal that only memory
  gives.

Main statement: new code is stored exactly if the free bytes hold its record,
except that an empty code is refused where its record would end with memory.
-/

namespace CodeCapsules.Store

open Flash (Image)

namespace Log

variable {first capacity : Nat} {log : Log} {hash : Hash} {code : Bytes}

/-- A log that holds no capsule of this length and hash answers by the length of
the code and by the room that is left. -/
theorem appendCode_of_absent
    (absent : ∀ record ∈ recordsAt first log.capsules,
      ¬ (record.header.length.toNat = headerSize + code.length ∧ record.header.hash = hash)) :
    (log.appendCode first capacity hash code).1 =
      if 65529 < code.length then Outcome.refuse (.lengthMismatch 65535 code.length)
      else if capacity - log.used first < headerSize + code.length then
        Outcome.refuse (.containerFull ⟨(log.used first).toUInt16⟩
          (headerSize + code.length).toUInt16 (capacity - log.used first))
      else .ok ⟨⟨(log.used first).toUInt16⟩, true⟩ := by
  have headerEq : headerSize = 6 := rfl
  unfold appendCode
  by_cases long : 65529 < code.length
  · rw [if_neg (by omega), if_pos long]
  · have lengthEq : (headerSize + code.length).toUInt16.toNat = headerSize + code.length :=
      toNat_toUInt16 (by omega)
    have nonzero : (headerSize + code.length).toUInt16 ≠ 0 := by
      intro zero
      rw [zero] at lengthEq
      have : (0 : UInt16).toNat = 0 := rfl
      omega
    have slot : slotAmong first log.capsules (headerSize + code.length).toUInt16 hash =
        .free ⟨(log.used first).toUInt16⟩ := by
      have missed : (recordsAt first log.capsules).find? (fun record =>
          record.header.describes (headerSize + code.length).toUInt16 hash) = none := by
        rw [List.find?_eq_none]
        intro record member describes
        rw [Header.describes_iff] at describes
        exact absent record member (by rw [describes]; exact ⟨lengthEq, rfl⟩)
      unfold slotAmong
      rw [missed]
      rfl
    rw [if_pos (by omega), if_neg long]
    unfold append
    simp only [slot, lengthEq]
    rw [if_neg nonzero, if_neg (by omega), dif_pos trivial]
    split
    · rfl
    · rfl

end Log

section OnImage

variable {container : Container} {memoryEnd : Nat} {store : Store Image} {log : Log}

/-- What a store answers to code that it does not hold. -/
theorem Represents.addCode_of_absent (represents : Represents container memoryEnd store log)
    {hash : Hash} {code : Bytes}
    (absent : ∀ record ∈ recordsAt container.firstPlace log.capsules,
      ¬ (record.header.length.toNat = headerSize + code.length ∧ record.header.hash = hash)) :
    ((Store.addCode hash code).result store).1 =
      if 65529 < code.length then Outcome.refuse (.lengthMismatch 65535 code.length)
      else if container.capacity - log.used container.firstPlace < headerSize + code.length then
        Outcome.refuse (.containerFull ⟨(log.used container.firstPlace).toUInt16⟩
          (headerSize + code.length).toUInt16
          (container.capacity - log.used container.firstPlace))
      else laidAnswer container memoryEnd (log.used container.firstPlace) code := by
  have answered := (represents.appendCode hash code).1
  rw [Log.appendCode_of_absent absent] at answered
  rw [← represents.located] at answered ⊢
  show ((Store.appendCode store.container hash code).result store.device).1 = _
  rw [answered]
  by_cases long : 65529 < code.length
  · rw [if_pos long, if_pos long]
    rfl
  · rw [if_neg long, if_neg long]
    split
    · rfl
    · rfl

end OnImage

/-- New code is stored behind the others exactly if the free bytes hold its
record. It is refused for its length if no header can announce it, for lack of
room if the free bytes are too few, and besides only if it is empty and its
record would end with memory: then the write of nothing starts behind memory,
and the device refuses it.

The store is any that opening its image gives, in whatever generation it is. -/
theorem append_succeeds_iff_room (store : Store Image) (listed : List Record) (hash : Hash)
    (code : Bytes) (valid : store.device.validate = .ok ())
    (addressable : store.device.memoryEnd < UInt32.size) (idle : store.device.cursor = none)
    (opened : (start store.device store.config).outcome =
      .ok { store with generation := .initial })
    (listable : store.list.outcome = .ok listed)
    (absent : ∀ record ∈ listed,
      ¬ (record.header.length.toNat = headerSize + code.length ∧ record.header.hash = hash)) :
    ∃ (offset : Offset) (free : Nat),
      store.used.outcome = .ok offset.value.toNat ∧ store.free.outcome = .ok free ∧
      (((addCode hash code).result store).1 = .ok ⟨offset, true⟩ ↔
        headerSize + code.length ≤ free ∧
          ¬ (code = [] ∧ store.container.base.value.toNat + offset.value.toNat + headerSize =
            store.device.memoryEnd)) ∧
      ((∃ declared size,
          ((addCode hash code).result store).1 = Outcome.refuse (.lengthMismatch declared size)) ↔
        65529 < code.length) ∧
      ((∃ place needed available, ((addCode hash code).result store).1 =
          Outcome.refuse (.containerFull place needed available)) ↔
        code.length ≤ 65529 ∧ free < headerSize + code.length) ∧
      ((∃ address, ((addCode hash code).result store).1 =
          Outcome.refuse (.flash (.addressOutOfRange address))) ↔
        headerSize + code.length ≤ free ∧ code = [] ∧
          store.container.base.value.toNat + offset.value.toNat + headerSize =
            store.device.memoryEnd) := by
  have mounted := mounts_of_locate valid addressable (eq_of_start opened).1
  have shows := shows_region mounted.holds addressable
  obtain ⟨capsules, contained, listedEq⟩ := contains_of_records shows listable
  have represents : Represents store.container store.device.memoryEnd store
      ⟨capsules, store.generation⟩ := ⟨⟨rfl, rfl, mounted, idle⟩, contained, rfl⟩
  rw [listedEq] at absent
  have answered := represents.addCode_of_absent absent
  obtain ⟨-, used, free⟩ := represents.reads
  have reachable : store.container.capacity ≤ 65535 := store.container.reachable
  have headerEq : headerSize = 6 := rfl
  have usedEq : (Log.used store.container.firstPlace
      ⟨capsules, store.generation⟩).toUInt16.toNat =
        Log.used store.container.firstPlace ⟨capsules, store.generation⟩ :=
    toNat_toUInt16 (shows.finish_lt contained.spelled)
  generalize Log.used store.container.firstPlace ⟨capsules, store.generation⟩ = place at *
  refine ⟨⟨place.toUInt16⟩, store.container.capacity - place, by rw [usedEq]; exact used, free, ?_⟩
  rw [answered, usedEq]
  -- Each of the four answers excludes the other three.
  by_cases long : 65529 < code.length
  · rw [if_pos long]
    exact ⟨iff_of_false nofun fun ⟨fits, _⟩ => by omega, iff_of_true ⟨_, _, rfl⟩ long,
      iff_of_false nofun fun ⟨short, _⟩ => by omega,
      iff_of_false nofun fun ⟨fits, _⟩ => by omega⟩
  · rw [if_neg long]
    by_cases full : store.container.capacity - place < headerSize + code.length
    · rw [if_pos full]
      exact ⟨iff_of_false nofun fun ⟨fits, _⟩ => by omega, iff_of_false nofun long,
        iff_of_true ⟨_, _, _, rfl⟩ ⟨by omega, full⟩,
        iff_of_false nofun fun ⟨fits, _⟩ => by omega⟩
    · rw [if_neg full, laidAnswer, ← Nat.add_assoc]
      split
      · rename_i strays
        exact ⟨iff_of_false nofun fun ⟨_, apart⟩ => apart strays, iff_of_false nofun long,
          iff_of_false nofun fun ⟨_, tooFew⟩ => full tooFew,
          iff_of_true ⟨_, rfl⟩ ⟨by omega, strays⟩⟩
      · rename_i apart
        exact ⟨iff_of_true rfl ⟨by omega, apart⟩, iff_of_false nofun long,
          iff_of_false nofun fun ⟨_, tooFew⟩ => full tooFew,
          iff_of_false nofun fun ⟨_, strays⟩ => apart strays⟩

/-- A capsule of eight bytes, six free bytes, and one more byte of memory behind
the container. -/
def snugImage : Image :=
  ⟨0x300, #[8, 0, 1, 2, 3, 4, 0x08, 0x95, 0, 0, 0, 0, 0, 0, 0xFF],
    [⟨⟨0x300⟩, 14, .capsuleBuffer⟩], none⟩

/-- The store on `snugImage`, in its third generation after the initial one. -/
def snugStore : Store Image :=
  ⟨snugImage, .standard, ⟨0, ⟨⟨0x300⟩, 14, .capsuleBuffer⟩, by decide⟩, ⟨3⟩⟩

theorem empty_code_fits_exactly :
    snugStore.device.validate = .ok () ∧ snugStore.device.memoryEnd < UInt32.size ∧
      snugStore.device.cursor = none ∧
      (start snugStore.device snugStore.config).outcome =
        .ok { snugStore with generation := .initial } ∧
      snugStore.list.outcome = .ok [⟨⟨0⟩, ⟨8, ⟨1, 2, 3, 4⟩⟩⟩] ∧
      snugStore.used.outcome = .ok 8 ∧ snugStore.free.outcome = .ok 6 ∧
      ((addCode ⟨5, 6, 7, 8⟩ []).result snugStore).1 = .ok ⟨⟨8⟩, true⟩ := by
  have valid : snugStore.device.validate = .ok () := by decide
  have addressable : snugStore.device.memoryEnd < UInt32.size := by decide
  have opened : (start snugStore.device snugStore.config).outcome =
      .ok { snugStore with generation := .initial } := rfl
  have listable : snugStore.list.outcome = .ok [⟨⟨0⟩, ⟨8, ⟨1, 2, 3, 4⟩⟩⟩] := by decide +kernel
  have used : snugStore.used.outcome = .ok 8 := by decide +kernel
  have free : snugStore.free.outcome = .ok 6 := by decide +kernel
  obtain ⟨offset, room, usedEq, freeEq, stored, -⟩ :=
    append_succeeds_iff_room snugStore _ ⟨5, 6, 7, 8⟩ [] valid addressable rfl opened listable
      (by decide)
  have offsetEq : offset = ⟨8⟩ :=
    Offset.ext (UInt16.toNat_inj.mp (Except.ok.inj (usedEq.symm.trans used)))
  have roomEq : room = 6 := Except.ok.inj (freeEq.symm.trans free)
  subst offsetEq roomEq
  exact ⟨valid, addressable, rfl, opened, listable, used, free, stored.mpr (by decide)⟩

/-- Six free bytes that are the end of memory. -/
def lastImage : Image := ⟨0x300, #[0, 0, 0, 0, 0, 0], [⟨⟨0x300⟩, 6, .capsuleBuffer⟩], none⟩

def lastStore : Store Image :=
  ⟨lastImage, .standard, ⟨0, ⟨⟨0x300⟩, 6, .capsuleBuffer⟩, by decide⟩, .initial⟩

/-- Room for a record is not enough for an empty code at the end of memory. The
refusal comes after the header is written, so that the record is there
nevertheless. -/
theorem empty_code_refused_at_memory_end :
    lastImage.validate = .ok () ∧ lastImage.memoryEnd < UInt32.size ∧ lastImage.cursor = none ∧
      (start lastImage .standard).outcome = .ok lastStore ∧ lastStore.list.outcome = .ok [] ∧
      lastStore.used.outcome = .ok 0 ∧ lastStore.free.outcome = .ok 6 ∧
      ((addCode ⟨1, 2, 3, 4⟩ []).result lastStore).1 =
        Outcome.refuse (.flash (.addressOutOfRange ⟨0x306⟩)) ∧
      ((addCode ⟨1, 2, 3, 4⟩ []).result lastStore).2.list.outcome =
        .ok [⟨⟨0⟩, ⟨6, ⟨1, 2, 3, 4⟩⟩⟩] := by
  refine ⟨by decide, by decide, rfl, rfl, ?_, ?_, ?_, ?_, ?_⟩
  all_goals decide +kernel

end CodeCapsules.Store
