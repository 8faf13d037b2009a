import CodeCapsules.Proofs.Clearing
import Mathlib.Algebra.GroupWithZero.Nat

/-!
Contract: where the code of records lies, and where a call of it enters.

Owns:
- word alignment and the way from a byte address to a word address and back;
- `Packed`, records that lie one behind the other, on any archive;
- the address of the code of a listed record.

Main statement: the code of a listed record is word aligned exactly if the
lengths of the records before it add up to an even number, and a call enters
exactly the code that is word aligned.
-/

namespace CodeCapsules

/-! ## Addresses -/

namespace CodeAddress

variable {address : CodeAddress}

theorem isWordAligned_iff : address.isWordAligned = true ↔ address.value.toNat % 2 = 0 := by
  unfold isWordAligned
  rw [beq_iff_eq, ← UInt32.toNat_inj, UInt32.toNat_and]
  show address.value.toNat &&& 1 = 0 ↔ _
  rw [Nat.and_one_is_mod]

/-- Below 128 KiB, the word of an address starts there or one byte before. -/
theorem toNat_toCode_toInstruction (below : address.value.toNat < 0x20000) :
    address.toInstruction.toCode.value.toNat = 2 * (address.value.toNat / 2) := by
  unfold toInstruction InstructionAddress.toCode
  simp only [UInt32.toNat_shiftLeft, UInt16.toNat_toUInt32, UInt32.toNat_toUInt16,
    UInt32.toNat_shiftRight]
  show (address.value.toNat >>> 1 % 2 ^ 16) <<< 1 % 2 ^ 32 = _
  rw [Nat.shiftRight_eq_div_pow, Nat.shiftLeft_eq]
  omega

theorem toCode_toInstruction_iff (below : address.value.toNat < 0x20000) :
    address.toInstruction.toCode = address ↔ address.isWordAligned = true := by
  have entered := toNat_toCode_toInstruction below
  rw [isWordAligned_iff]
  constructor
  · intro same
    rw [same] at entered
    omega
  · intro even
    have sameNat : address.toInstruction.toCode.value.toNat = address.value.toNat := by omega
    exact congrArg CodeAddress.mk (UInt32.toNat_inj.mp sameNat)

end CodeAddress

namespace Store

open Flash (Archive Image Keeps WriteSession)

theorem Container.even_firstPlace (container : Container) :
    (container.base.value.toNat + container.firstPlace) % 2 = 0 := by
  unfold Container.firstPlace Container.firstOffset
  split
  · rename_i aligned
    exact CodeAddress.isWordAligned_iff.mp aligned
  · rename_i unaligned
    rw [CodeAddress.isWordAligned_iff] at unaligned
    show (_ + 1) % 2 = 0
    omega

/-! ## Packed records -/

section Packing

variable {archive : Archive} {container : Container}

/-- How many bytes records take together. -/
def lengthSum (listed : List Record) : Nat :=
  (listed.map fun record => record.header.length.toNat).sum

@[simp]
theorem lengthSum_nil : lengthSum [] = 0 := rfl

@[simp]
theorem lengthSum_cons (record : Record) (rest : List Record) :
    lengthSum (record :: rest) = record.header.length.toNat + lengthSum rest := rfl

theorem even_lengthSum {listed : List Record}
    (even : ∀ record ∈ listed, record.header.length.toNat % 2 = 0) : lengthSum listed % 2 = 0 := by
  induction listed with
  | nil => rfl
  | cons record rest inductionHypothesis =>
      have head := even record (by simp)
      have tail := inductionHypothesis fun other member => even other (by simp [member])
      rw [lengthSum_cons]
      omega

/-- Records one behind the other from a place on. Each lies inside the
container, and its header can be read there. -/
def Packed (archive : Archive) (container : Container) : Nat → List Record → Prop
  | _, [] => True
  | place, record :: rest =>
      record.offset.value.toNat = place ∧
        place + record.header.length.toNat ≤ container.capacity ∧
        (walkAt container place).readHash archive = .ok record.header.hash ∧
        Packed archive container (place + record.header.length.toNat) rest

/-- A step of the walk that yields a record has read its header, and goes on
behind it. -/
theorem next_eq_record {place : Nat} {record : Record} {next : Scan}
    (stepped : (walkAt container place).next archive = (some (.ok record), next)) :
    record.offset = ⟨place.toUInt16⟩ ∧
      place + record.header.length.toNat ≤ container.capacity ∧
      (walkAt container place).readHash archive = .ok record.header.hash ∧
      next = walkAt container (place + record.header.length.toNat) := by
  unfold Scan.next at stepped
  split at stepped
  · simp at stepped
  split at stepped
  · simp at stepped
  split at stepped
  · simp at stepped
  split at stepped
  · simp [Scan.corrupt, Outcome.refuse] at stepped
  split at stepped
  · simp [Scan.corrupt, Outcome.refuse] at stepped
  rename_i fits
  split at stepped
  · simp at stepped
  · rename_i hash read
    obtain ⟨item, after⟩ := Prod.mk.inj stepped
    have recordEq := Except.ok.inj (Option.some.inj item)
    rw [← recordEq]
    exact ⟨rfl, Nat.le_of_not_lt fits, read, after.symm⟩

theorem next_eq_none {place : Nat} {next : Scan}
    (stepped : (walkAt container place).next archive = (none, next)) :
    next = endedAt container place := by
  unfold Scan.next at stepped
  repeat' split at stepped
  all_goals simp only [Prod.mk.injEq, reduceCtorEq, false_and, true_and] at stepped
  all_goals exact stepped.symm

/-- The records that a walk yields are packed, and it ends behind them. -/
theorem packed_of_collect {place : Nat} {listed : List Record}
    (listable : (recordsOf ((walkAt container place).collect archive).1).outcome = .ok listed) :
    Packed archive container place listed ∧
      ((walkAt container place).collect archive).2 =
        endedAt container (place + lengthSum listed) := by
  -- Along the records, not the walk: each of them is one step of it.
  induction listed generalizing place with
  | nil =>
      refine ⟨trivial, ?_⟩
      cases stepped : (walkAt container place).next archive with
      | mk item next =>
          cases item with
          | none =>
              rw [collect_of_next_none stepped]
              exact next_eq_none stepped
          | some item =>
              rw [collect_of_next_some stepped] at listable
              simp only [recordsOf, Logged.outcome_bind] at listable
              obtain ⟨record, -, more⟩ := Outcome.bind_eq_ok.mp listable
              obtain ⟨rest, -, nonempty⟩ := Outcome.bind_eq_ok.mp more
              exact absurd (Except.ok.inj nonempty) (by simp)
  | cons record rest inductionHypothesis =>
      cases stepped : (walkAt container place).next archive with
      | mk item next =>
          cases item with
          | none =>
              rw [collect_of_next_none stepped] at listable
              exact absurd (Except.ok.inj listable) (by simp)
          | some item =>
              rw [collect_of_next_some stepped] at listable ⊢
              simp only [recordsOf, Logged.outcome_bind] at listable
              obtain ⟨head, itemEq, more⟩ := Outcome.bind_eq_ok.mp listable
              obtain ⟨tail, restListed, consEq⟩ := Outcome.bind_eq_ok.mp more
              obtain ⟨headEq, tailEq⟩ := List.cons.inj (Except.ok.inj consEq)
              rw [itemEq, headEq] at stepped
              obtain ⟨offset, fits, read, nextEq⟩ := next_eq_record stepped
              rw [tailEq, nextEq] at restListed
              obtain ⟨packed, ended⟩ := inductionHypothesis restListed
              have reachable : container.capacity ≤ 65535 := container.reachable
              have offsetNat : record.offset.value.toNat = place := by
                rw [offset]
                exact toNat_toUInt16 (by omega)
              refine ⟨⟨offsetNat, fits, read, packed⟩, ?_⟩
              rw [nextEq, ended, lengthSum_cons, Nat.add_assoc]

theorem packed_of_records {listed : List Record}
    (listable : (records archive container).outcome = .ok listed) :
    Packed archive container container.firstPlace listed ∧
      ((Scan.start container).collect archive).2 =
        endedAt container (container.firstPlace + lengthSum listed) :=
  packed_of_collect listable

/-- A packed record lies behind all before it. -/
theorem Packed.split {place : Nat} {earlier later : List Record} {record : Record}
    (packed : Packed archive container place (earlier ++ record :: later)) :
    record.offset.value.toNat = place + lengthSum earlier ∧
      place + lengthSum earlier + record.header.length.toNat ≤ container.capacity ∧
      (walkAt container (place + lengthSum earlier)).readHash archive =
        .ok record.header.hash := by
  induction earlier generalizing place with
  | nil => exact ⟨packed.1, packed.2.1, packed.2.2.1⟩
  | cons first rest inductionHypothesis =>
      have behind := inductionHypothesis packed.2.2.2
      rw [lengthSum_cons, ← Nat.add_assoc]
      exact behind

end Packing

/-! ## Code addresses in an image -/

section Reading

variable {image : Image} {container : Container}

theorem lt_memoryEnd_of_readByte {address : CodeAddress} {byte : UInt8}
    (read : image.readByte address = .ok byte) : address.value.toNat < image.memoryEnd := by
  unfold Image.readByte at read
  cases indexed : image.indexOf address with
  | error cause =>
      rw [indexed] at read
      contradiction
  | ok index =>
      obtain ⟨originLe, inside, indexEq⟩ := Flash.Image.indexOf_eq_ok indexed
      unfold Flash.Image.memoryEnd
      omega

/-- Bytes are read only if the first of them is, and then the others. -/
theorem readFrom_eq_ok {archive : Archive} {address : CodeAddress} {index count : Nat}
    (read : (archive.readFrom address index (count + 1)).2 = .ok ()) :
    (∃ sum byte, (sum32 address.value index.toUInt32 : Outcome Flash.Error UInt32) = .ok sum ∧
        archive.readByte ⟨sum⟩ = .ok byte) ∧
      (archive.readFrom address (index + 1) count).2 = .ok () := by
  rw [readFrom_succ] at read
  cases first : (sum32 address.value index.toUInt32 >>= fun sum =>
      Outcome.ofExcept (archive.readByte ⟨sum⟩) : Outcome Flash.Error UInt8) with
  | error stop =>
      rw [first] at read
      contradiction
  | ok byte =>
      rw [first] at read
      obtain ⟨sum, summed, readByte⟩ := Outcome.bind_eq_ok.mp first
      exact ⟨⟨sum, byte, summed, Outcome.ofExcept_eq_ok.mp readByte⟩, read⟩

theorem lt_memoryEnd_of_readFrom {address : CodeAddress} {index count : Nat}
    (short : index + count < UInt32.size)
    (read : (image.archive.readFrom address index (count + 1)).2 = .ok ()) :
    address.value.toNat + (index + count) < image.memoryEnd := by
  induction count generalizing index with
  | zero =>
      obtain ⟨⟨sum, byte, summed, readByte⟩, -⟩ := readFrom_eq_ok read
      obtain ⟨fits, sumEq⟩ := sum32_eq_ok_iff.mp summed
      rw [UInt32.toNat_ofNat', Nat.mod_eq_of_lt (by simpa using short)] at fits
      have inside := lt_memoryEnd_of_readByte readByte
      rw [sumEq, toNat_add_place _ _ fits] at inside
      exact inside
  | succ count inductionHypothesis =>
      have inside := inductionHypothesis (by omega) (readFrom_eq_ok read).2
      rw [Nat.add_assoc index 1 count, Nat.add_comm 1 count] at inside
      exact inside

/-- The code of a record whose header was read has an address. -/
theorem codeAddress_of_readHash {place : Nat} {hash : Hash} {offset : Offset}
    (addressable : image.memoryEnd < UInt32.size)
    (read : (walkAt container place).readHash image.archive = .ok hash)
    (offsetEq : offset.value.toNat = place) :
    ∃ address, (container.codeAddress offset : Outcome Error CodeAddress) = .ok address ∧
      address.value.toNat = container.base.value.toNat + place + headerSize := by
  have placeLt : place < 65536 := by
    rw [← offsetEq]
    exact offset.value.toNat_lt
  have sizeEq : UInt32.size = 4294967296 := rfl
  unfold Scan.readHash Container.addressOf at read
  obtain ⟨address, addressed, read⟩ := Outcome.bind_eq_ok.mp read
  obtain ⟨sum, summed, addressEq⟩ := Outcome.bind_eq_ok.mp addressed
  obtain ⟨bytes, readBytes, -⟩ := Outcome.bind_eq_ok.mp read
  change sum32 container.base.value (place + 2).toUInt32 = _ at summed
  obtain ⟨fits, sumEq⟩ := sum32_eq_ok_iff.mp summed
  -- The last byte of the hash is in memory, so the address behind it is one.
  have inside : address.value.toNat + (0 + 3) < image.memoryEnd := by
    apply lt_memoryEnd_of_readFrom (by decide)
    have readBytes := Outcome.mapCause_eq_ok.mp readBytes
    unfold Archive.readBytes at readBytes
    cases outcome : (image.archive.readFrom address 0 4).2 with
    | ok done => rfl
    | error stop =>
        change Except.map _ (image.archive.readFrom address 0 4).2 = _ at readBytes
        rw [outcome] at readBytes
        contradiction
  have addressNat : address.value.toNat = container.base.value.toNat + (place + 2) := by
    rw [← Except.ok.inj addressEq, sumEq]
    apply toNat_add_place
    rw [UInt32.toNat_ofNat', Nat.mod_eq_of_lt (by omega)] at fits
    exact fits
  have codeFits : container.base.value.toNat + (place + headerSize) < UInt32.size := by
    unfold headerSize
    omega
  refine ⟨⟨container.base.value + (place + headerSize).toUInt32⟩, ?_, ?_⟩
  · unfold Container.codeAddress Container.addressOf
    rw [offsetEq, CodeCapsules.sum32_place codeFits]
    rfl
  · show (container.base.value + (place + headerSize).toUInt32).toNat = _
    rw [toNat_add_place _ _ codeFits, Nat.add_assoc]

/-- The code of a listed record has an address, which is word aligned exactly
if the records before it take an even number of bytes. -/
theorem codeAddress_of_records {earlier later : List Record} {record : Record}
    (addressable : image.memoryEnd < UInt32.size)
    (listable : (records image.archive container).outcome = .ok (earlier ++ record :: later)) :
    ∃ address, (container.codeAddress record.offset : Outcome Error CodeAddress) = .ok address ∧
      address.value.toNat =
        container.base.value.toNat + record.offset.value.toNat + headerSize ∧
      (address.isWordAligned = true ↔ lengthSum earlier % 2 = 0) := by
  obtain ⟨offsetEq, -, read⟩ := (packed_of_records listable).1.split
  obtain ⟨address, located, addressNat⟩ := codeAddress_of_readHash addressable read offsetEq
  have even := container.even_firstPlace
  refine ⟨address, located, by rw [addressNat, offsetEq], ?_⟩
  rw [CodeAddress.isWordAligned_iff, addressNat]
  unfold headerSize
  omega

end Reading

/-! ## Containers that can be listed -/

section Listing

variable {container : Container} {store : Store Image}

/-- A store on an image, the container of which contains capsules. -/
structure Listable (container : Container) (store : Store Image) : Prop where
  located : store.container = container
  mounted : store.device.Mounts container.index container.entry
  contained : ∃ capsules, Contains (store.device.region container.entry) container.firstPlace
    capsules

theorem Listable.list (listable : Listable container store) :
    ∃ listed, store.list.outcome = .ok listed := by
  obtain ⟨capsules, contained⟩ := listable.contained
  have shows := shows_region listable.mounted.holds listable.mounted.addressable
  refine ⟨recordsAt container.firstPlace capsules, ?_⟩
  unfold Store.list
  rw [listable.located]
  exact records_of_contains shows contained

/-- A session cannot be opened before the last is closed. -/
theorem append_device_of_busy {image : Image} {cursor : Flash.Cursor}
    (busy : image.cursor = some cursor) (header : Header) (code : Bytes) :
    ((append container header code).result image).2 = image := by
  rcases result_append_cases container header code image with
    ⟨same, -⟩ | ⟨offset, -, -, -, -, result⟩
  · exact same
  · have opening := Flash.Image.result_openFile_busy busy container.index offset.value.toUInt32
    rw [result, WriteSession.result_run_of_refused (congrArg Prod.fst opening), opening]

theorem Listable.perform (listable : Listable container store) (call : Call) :
    Listable container (call.perform.result store).2 := by
  obtain ⟨located, mounted⟩ := keeps_perform (Flash.Image.keeps_mounts container.index
    container.entry) call store listable.mounted
  refine ⟨located.trans listable.located, mounted, ?_⟩
  obtain ⟨capsules, contained⟩ := listable.contained
  rcases perform_cases call store with
    ⟨-, same | ⟨header, code, appended⟩⟩ | ⟨-, accepted, erased⟩ | ⟨stop, -, outcome, refused⟩
  · rw [same]
    exact ⟨capsules, contained⟩
  · rw [appended, listable.located]
    -- An erase before may have left its session open.
    cases cursor : store.device.cursor with
    | some standing =>
        rw [append_device_of_busy cursor]
        exact ⟨capsules, contained⟩
    | none =>
        have represents : Represents container store.device.memoryEnd store
            ⟨capsules, store.generation⟩ :=
          ⟨⟨listable.located, rfl, listable.mounted, cursor⟩, contained, rfl⟩
        exact ⟨_, (represents.append header code).2.contained⟩
  · rw [erased]
    rw [listable.located] at accepted ⊢
    rcases erase_cases (δ := Image) listable.mounted with ⟨-, emptied⟩ | ⟨_, stopped, -⟩
    · exact ⟨[], emptied⟩
    · rw [accepted] at stopped
      contradiction
  · rw [refused]
    rw [listable.located] at outcome ⊢
    rcases erase_cases (δ := Image) listable.mounted with
      ⟨accepted, -⟩ | ⟨_, -, ⟨-, cursor, left⟩ | ⟨-, -, emptied⟩⟩
    · rw [accepted] at outcome
      contradiction
    · change ((erase container).result store.device).2 = { store.device with cursor } at left
      simp only
      rw [left]
      exact ⟨capsules, contained⟩
    · exact ⟨[], emptied⟩

theorem Listable.after (listable : Listable container store) (calls : List Call) :
    Listable container (after calls store) := by
  induction calls generalizing store with
  | nil => exact listable
  | cons call rest inductionHypothesis => exact inductionHypothesis (listable.perform call)

end Listing

/-- From an empty container on, whatever is appended and erased: the container
of a valid image can be listed; each listed record has a code address, which is
word aligned exactly if the records before it take an even number of bytes; and
below 128 KiB a call enters exactly the code that is word aligned. -/
theorem code_aligned_iff_lengths_even (image : Image) (config : Config) (store : Store Image)
    (addressable : image.memoryEnd < UInt32.size)
    (opened : (start image config).outcome = .ok store) (before calls : List Call)
    (emptied : (after before store).list.outcome = .ok []) :
    (image.validate = .ok () →
        ∃ listed, (after (before ++ calls) store).list.outcome = .ok listed) ∧
      ∀ (earlier later : List Record) (record : Record),
        (after (before ++ calls) store).list.outcome = .ok (earlier ++ record :: later) →
          ∃ address, (after (before ++ calls) store).codeAddress record.offset = .ok address ∧
            address.value.toNat = store.container.base.value.toNat +
              record.offset.value.toNat + headerSize ∧
            (address.isWordAligned = true ↔
              (earlier.map fun other => other.header.length.toNat).sum % 2 = 0) ∧
            (address.value.toNat < 0x20000 →
              (address.toInstruction.toCode = address ↔ address.isWordAligned = true)) := by
  obtain ⟨located, storeEq⟩ := eq_of_start opened
  have deviceEq : store.device = image := by rw [storeEq]
  have keepsEnd : Keeps fun other : Image => other.memoryEnd = image.memoryEnd := by
    apply Flash.Image.keeps_of_layout
    intro other start chunk cursor same
    rw [← same]
    simp [Flash.Image.memoryEnd]
  obtain ⟨containerEq, endEq⟩ :=
    keeps_after keepsEnd (before ++ calls) store (by rw [deviceEq])
  constructor
  · intro valid
    have mounted := mounts_of_locate valid addressable located
    obtain ⟨containerThen, mountedThen⟩ := keeps_after
      (Flash.Image.keeps_mounts store.container.index store.container.entry) before store
      (by rw [deviceEq]; exact mounted)
    have shows := shows_region mountedThen.holds mountedThen.addressable
    unfold Store.list at emptied
    rw [containerThen] at emptied
    obtain ⟨capsules, contained, -⟩ := contains_of_records shows emptied
    have listable : Listable store.container (after before store) :=
      ⟨containerThen, mountedThen, capsules, contained⟩
    rw [after_append]
    exact (listable.after calls).list
  · intro earlier later record listed
    unfold Store.list at listed
    rw [containerEq] at listed
    obtain ⟨address, codeAddress, addressNat, aligned⟩ := codeAddress_of_records
      (by rw [endEq]; exact addressable) listed
    refine ⟨address, ?_, addressNat, aligned, CodeAddress.toCode_toInstruction_iff⟩
    unfold Store.codeAddress
    rw [containerEq]
    exact codeAddress

/-- An erased container of 32 bytes. -/
def wideImage : Image :=
  ⟨0x300, Array.replicate 32 0, [⟨⟨0x300⟩, 32, .capsuleBuffer⟩], none⟩

/-- The store that is opened on `wideImage`. -/
def wideStore : Store Image :=
  ⟨wideImage, .standard, ⟨0, ⟨⟨0x300⟩, 32, .capsuleBuffer⟩, by decide⟩, .initial⟩

/-- A capsule with this code, and behind it one that loads a constant and
returns. -/
def loadBehind (code : Bytes) : List Call :=
  [.appendCode ⟨1, 1, 1, 1⟩ code, .appendCode ⟨2, 2, 2, 2⟩ [0x82, 0xE4, 0x08, 0x95]]

theorem code_aligned_behind_even_record :
    wideImage.memoryEnd < UInt32.size ∧ (start wideImage .standard).outcome = .ok wideStore ∧
      (after [.erase] wideStore).list.outcome = .ok [] ∧ wideImage.validate = .ok () ∧
      (after ([.erase] ++ loadBehind [0, 0]) wideStore).list.outcome =
        .ok ([⟨⟨0⟩, ⟨8, ⟨1, 1, 1, 1⟩⟩⟩] ++ ⟨⟨8⟩, ⟨10, ⟨2, 2, 2, 2⟩⟩⟩ :: []) ∧
      ∃ address, (after ([.erase] ++ loadBehind [0, 0]) wideStore).codeAddress ⟨8⟩ = .ok address ∧
        address.value.toNat < 0x20000 ∧ address.toInstruction.toCode = address := by
  have addressable : wideImage.memoryEnd < UInt32.size := by decide
  have opened : (start wideImage .standard).outcome = .ok wideStore := by rfl
  have emptied : (after [.erase] wideStore).list.outcome = .ok [] := by decide +kernel
  have listed : (after ([.erase] ++ loadBehind [0, 0]) wideStore).list.outcome =
      .ok ([⟨⟨0⟩, ⟨8, ⟨1, 1, 1, 1⟩⟩⟩] ++ ⟨⟨8⟩, ⟨10, ⟨2, 2, 2, 2⟩⟩⟩ :: []) := by decide +kernel
  obtain ⟨-, aligns⟩ := code_aligned_iff_lengths_even wideImage .standard wideStore addressable
    opened [.erase] (loadBehind [0, 0]) emptied
  obtain ⟨address, codeAddress, addressNat, aligned, enters⟩ := aligns _ _ _ listed
  have below : address.value.toNat < 0x20000 := by
    rw [addressNat]
    decide
  exact ⟨addressable, opened, emptied, by decide, listed, address, codeAddress, below,
    (enters below).mpr (aligned.mpr (by decide))⟩

/-- Behind a record of seven bytes, code lies at an odd address, and a call of
it enters one byte early. -/
theorem code_behind_odd_record_unaligned :
    wideImage.memoryEnd < UInt32.size ∧ wideImage.validate = .ok () ∧
      (start wideImage .standard).outcome = .ok wideStore ∧
      (after [.erase] wideStore).list.outcome = .ok [] ∧
      (after ([.erase] ++ loadBehind [0]) wideStore).list.outcome =
        .ok [⟨⟨0⟩, ⟨7, ⟨1, 1, 1, 1⟩⟩⟩, ⟨⟨7⟩, ⟨10, ⟨2, 2, 2, 2⟩⟩⟩] ∧
      (after ([.erase] ++ loadBehind [0]) wideStore).codeAddress ⟨7⟩ = .ok ⟨0x30D⟩ ∧
      (⟨0x30D⟩ : CodeAddress).isWordAligned = false ∧
      (⟨0x30D⟩ : CodeAddress).toInstruction.toCode = ⟨0x30C⟩ := by
  exact ⟨by decide, by decide, by rfl, by decide +kernel, by decide +kernel, by decide +kernel,
    by decide, by decide⟩

end Store

end CodeCapsules
