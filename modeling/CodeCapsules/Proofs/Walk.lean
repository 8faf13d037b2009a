import CodeCapsules.Store.Scan
import CodeCapsules.Proofs.Capsule
import CodeCapsules.Proofs.Region

/-!
Contract: the walk through the records of a container reads exactly the format
of its bytes.

Owns:
- `Shows`, an archive that answers the bytes of a container;
- one step of the walk where the list of capsules ends, breaks off or goes on;
- the whole walk, the records and the occupied part, for any bytes.

Main statement: listing a container succeeds exactly on the bytes that contain
capsules, lists these, and otherwise refuses the first place where the list of
capsules breaks off.
-/

namespace CodeCapsules.Store

open Flash (Archive)

/-- The archive answers `bytes` for the container. -/
structure Shows (archive : Archive) (container : Container) (bytes : Bytes) : Prop where
  size : bytes.length = container.capacity
  addressable : container.base.value.toNat + container.capacity < UInt32.size
  byte : ∀ (place : Nat) (value : UInt8), bytes[place]? = some value →
    archive.readByte ⟨container.base.value + place.toUInt32⟩ = .ok value

/-- An image shows the region of a container that lies inside its memory. -/
theorem shows_region {image : Flash.Image} {container : Container}
    (holds : image.Holds container.entry) (addressable : image.memoryEnd < UInt32.size) :
    Shows image.archive container (image.region container.entry) where
  size := Flash.Image.length_region holds
  addressable := by
    have finishLe := holds.2
    unfold Container.base Container.capacity
    omega
  byte := fun _ _ present => Flash.Image.readByte_region holds addressable present

/-- The walk in progress at a place. -/
abbrev walkAt (container : Container) (place : Nat) : Scan := ⟨container, place, false⟩

/-- The walk that has ended at a place. -/
abbrev endedAt (container : Container) (place : Nat) : Scan := ⟨container, place, true⟩

section Reading

variable {archive : Archive} {container : Container} {bytes : Bytes} {place : Nat}

theorem place_add (base : UInt32) (place index : Nat) :
    base + place.toUInt32 + index.toUInt32 = base + (place + index).toUInt32 := by
  show base + UInt32.ofNat place + UInt32.ofNat index = base + UInt32.ofNat (place + index)
  rw [UInt32.ofNat_add, UInt32.add_assoc]

theorem addressOf_place {ε : Type}
    (fits : container.base.value.toNat + place < UInt32.size) :
    (container.addressOf place : Outcome ε CodeAddress) =
      .ok ⟨container.base.value + place.toUInt32⟩ := by
  unfold Container.addressOf
  rw [sum32_place fits]
  rfl

theorem Shows.addressOf {ε : Type} (shows : Shows archive container bytes) (place : Nat)
    (inside : place ≤ bytes.length) :
    (container.addressOf place : Outcome ε CodeAddress) =
      .ok ⟨container.base.value + place.toUInt32⟩ := by
  have addressable := shows.addressable
  have size := shows.size
  exact addressOf_place (by omega)

/-- The step from one shown byte to the next stays among the addresses. -/
theorem Shows.sum32_place {ε : Type} (shows : Shows archive container bytes)
    (place index : Nat) (inside : place + index ≤ bytes.length) :
    (sum32 (container.base.value + place.toUInt32) index.toUInt32 : Outcome ε UInt32) =
      .ok (container.base.value + (place + index).toUInt32) := by
  have addressable := shows.addressable
  have size := shows.size
  rw [CodeCapsules.sum32_place (by
    rw [toNat_add_place container.base.value place (by omega)]
    omega), place_add]

/-- The length field is the length that stands at the place. -/
theorem readLength_eq (shows : Shows archive container bytes) {length : UInt16}
    (lengthAt : lengthAt? bytes place = some length) :
    (walkAt container place).readLength archive = .ok length := by
  cases lowAt : bytes[place]? with
  | none => simp [lengthAt?, lowAt] at lengthAt
  | some low =>
      cases highAt : bytes[place + 1]? with
      | none => simp [lengthAt?, lowAt, highAt] at lengthAt
      | some high =>
          rw [lengthAt?_eq_some lowAt highAt] at lengthAt
          have highLt := (List.getElem?_eq_some_iff.mp highAt).1
          have next := shows.sum32_place (ε := Flash.Error) place 1 (by omega)
          simp only [Scan.readLength, shows.addressOf place (by omega), Outcome.bind_ok,
            Archive.readWord, shows.byte place low lowAt, Outcome.ofExcept_ok]
          rw [show (1 : UInt32) = (1 : Nat).toUInt32 from rfl, next]
          simp only [Outcome.bind_ok, shows.byte (place + 1) high highAt, Outcome.ofExcept_ok,
            ← Option.some.inj lengthAt]
          rfl

/-- Bytes are read one by one, up to the first that cannot be read. -/
theorem readFrom_succ (archive : Archive) (address : CodeAddress) (index count : Nat) :
    archive.readFrom address index (count + 1) =
      match sum32 address.value index.toUInt32 >>= fun sum =>
          Outcome.ofExcept (archive.readByte ⟨sum⟩) with
      | .error stop => ([], .error stop)
      | .ok byte => (byte :: (archive.readFrom address (index + 1) count).1,
          (archive.readFrom address (index + 1) count).2) := rfl

/-- Consecutive bytes are read as they stand. -/
theorem readFrom_eq (shows : Shows archive container bytes) (place index : Nat) (chunk : Bytes)
    (standing : chunk <+: bytes.drop (place + index)) :
    archive.readFrom ⟨container.base.value + place.toUInt32⟩ index chunk.length =
      (chunk, .ok ()) := by
  induction chunk generalizing index with
  | nil => rfl
  | cons first rest inductionHypothesis =>
      obtain ⟨behind, behindEq⟩ := standing
      have firstAt : bytes[place + index]? = some first := by
        rw [← Nat.add_zero (place + index), ← List.getElem?_drop, ← behindEq]
        rfl
      have firstLt := (List.getElem?_eq_some_iff.mp firstAt).1
      have restStanding : rest <+: bytes.drop (place + (index + 1)) := by
        refine ⟨behind, ?_⟩
        rw [← Nat.add_assoc, ← List.drop_drop, ← behindEq]
        rfl
      have address := shows.sum32_place (ε := Flash.Error) place index (by omega)
      simp only [List.length_cons, Archive.readFrom, address, Outcome.bind_ok,
        shows.byte (place + index) first firstAt, Outcome.ofExcept_ok,
        inductionHypothesis (index + 1) restStanding]

theorem readBytes_eq (shows : Shows archive container bytes) (place : Nat) (chunk : Bytes)
    (standing : chunk <+: bytes.drop place) :
    archive.readBytes ⟨container.base.value + place.toUInt32⟩ chunk.length = .ok chunk := by
  unfold Archive.readBytes
  rw [readFrom_eq shows place 0 chunk standing]
  rfl

/-- The hash is the one of the header that stands at the place. -/
theorem readHash_eq (shows : Shows archive container bytes) {header : Header}
    {rest : Bytes} (standing : bytes.drop place = header.encode ++ rest) :
    (walkAt container place).readHash archive = .ok header.hash := by
  have hashStanding : header.hash.toBytes <+: bytes.drop (place + 2) := by
    refine ⟨rest, ?_⟩
    rw [← List.drop_drop, standing, Header.encode_eq]
    rfl
  have room : place + 2 ≤ bytes.length := by
    have lengths := congrArg List.length standing
    rw [List.length_drop, List.length_append, Header.length_encode, headerSize] at lengths
    omega
  have readBytes : archive.readBytes ⟨container.base.value + (place + 2).toUInt32⟩ Hash.size =
      .ok header.hash.toBytes := readBytes_eq shows (place + 2) header.hash.toBytes hashStanding
  simp only [Scan.readHash, shows.addressOf (place + 2) room, Outcome.bind_ok, readBytes,
    Outcome.mapCause_ok]
  rfl

end Reading

/-! ## One step -/

section Step

variable {archive : Archive} {container : Container} {bytes : Bytes} {place : Nat}

theorem next_of_ends (shows : Shows archive container bytes) (ended : Ends bytes place) :
    (walkAt container place).next archive = (none, endedAt container place) := by
  have size := shows.size
  unfold Scan.next
  rcases ended with ⟨room, lowAt, highAt⟩ | short
  · have zero := readLength_eq shows (lengthAt?_eq_some lowAt highAt)
    simp only [Bool.false_eq_true, false_or]
    rw [if_neg (by omega), zero]
    rfl
  · rw [if_pos (.inr (by simp only; omega))]

/-- Where a length stands, the walk reads it and goes by what it says. -/
theorem next_of_lengthAt? (shows : Shows archive container bytes) {length : UInt16}
    (lengthAt : lengthAt? bytes place = some length) (positive : 0 < length.toNat) :
    (walkAt container place).next archive =
      if length.toNat < headerSize ∨ bytes.length < place + length.toNat then
        (some ((walkAt container place).corrupt length
          (breakReason container.capacity place length)), endedAt container place)
      else
        match (walkAt container place).readHash archive with
        | .error stop => (some (.error stop), endedAt container place)
        | .ok hash =>
          (some (.ok ⟨⟨place.toUInt16⟩, ⟨length, hash⟩⟩),
            walkAt container (place + length.toNat)) := by
  have size := shows.size
  have room := room_of_lengthAt? lengthAt
  unfold Scan.next
  simp only [Bool.false_eq_true, false_or]
  rw [if_neg (by omega), readLength_eq shows lengthAt]
  simp only [if_neg (by omega : ¬ length.toNat = 0)]
  by_cases short : length.toNat < headerSize
  · rw [if_pos short, if_pos (.inl short), breakReason, if_pos short]
  · rw [if_neg short, breakReason, if_neg short, size]
    by_cases past : container.capacity < place + length.toNat
    · rw [if_pos past, if_pos (.inr past)]
    · rw [if_neg past, if_neg (by rintro (isShort | isPast) <;> contradiction)]
      rfl

theorem next_of_breaks (shows : Shows archive container bytes) {length : UInt16}
    (broken : Breaks bytes place length) :
    (walkAt container place).next archive =
      (some ((walkAt container place).corrupt length
        (breakReason container.capacity place length)), endedAt container place) := by
  obtain ⟨lengthAt, reason⟩ := broken
  have room := room_of_lengthAt? lengthAt
  rw [next_of_lengthAt? shows lengthAt (by omega), if_pos (by omega)]

theorem next_of_spells (shows : Shows archive container bytes) {capsule : Capsule}
    (spelled : Spells bytes place [capsule]) :
    (walkAt container place).next archive =
      (some (.ok ⟨⟨place.toUInt16⟩, capsule.header⟩), walkAt container (place + capsule.size)) := by
  have fits := spelled.capsule_fits
  have covered := capsule.headerSize_le_size
  have positive : 0 < headerSize := by decide
  unfold Capsule.size at fits covered
  rw [next_of_lengthAt? shows (lengthAt?_of_header spelled.drop_eq) (by omega),
    if_neg (by omega), readHash_eq shows spelled.drop_eq]
  rfl

end Step

/-! ## The whole walk -/

section Collect

variable {archive : Archive} {container : Container} {bytes : Bytes} {place : Nat}

theorem collect_of_next_none {scan after : Scan} (stepped : scan.next archive = (none, after)) :
    scan.collect archive = ([], after) := by
  rw [Scan.collect]
  split
  · rename_i stopped
    rw [stepped] at stopped
    rw [(Prod.mk.inj stopped).2]
  · rename_i wentOn
    rw [stepped] at wentOn
    exact absurd (Prod.mk.inj wentOn).1 (by simp)

theorem collect_of_next_some {scan after : Scan} {item : Item}
    (stepped : scan.next archive = (some item, after)) :
    scan.collect archive = (item :: (after.collect archive).1, (after.collect archive).2) := by
  rw [Scan.collect]
  split
  · rename_i stopped
    rw [stepped] at stopped
    exact absurd (Prod.mk.inj stopped).1 (by simp)
  · rename_i wentOn
    rw [stepped] at wentOn
    obtain ⟨itemEq, afterEq⟩ := Prod.mk.inj wentOn
    rw [Option.some.inj itemEq, afterEq]

theorem collect_ended :
    (endedAt container place).collect archive = ([], endedAt container place) := by
  apply collect_of_next_none
  unfold Scan.next
  simp

theorem collect_of_ends (shows : Shows archive container bytes) (ended : Ends bytes place) :
    (walkAt container place).collect archive = ([], endedAt container place) :=
  collect_of_next_none (next_of_ends shows ended)

theorem collect_of_breaks (shows : Shows archive container bytes) {length : UInt16}
    (broken : Breaks bytes place length) :
    (walkAt container place).collect archive =
      ([(walkAt container place).corrupt length (breakReason container.capacity place length)],
        endedAt container place) := by
  rw [collect_of_next_some (next_of_breaks shows broken), collect_ended]

/-- The walk yields the records of the capsules it passes, and then whatever
it yields from behind them on. -/
theorem collect_of_spells (shows : Shows archive container bytes) {capsules : List Capsule}
    (spelled : Spells bytes place capsules) :
    (walkAt container place).collect archive =
      ((recordsAt place capsules).map .ok ++
          ((walkAt container (place + totalSize capsules)).collect archive).1,
        ((walkAt container (place + totalSize capsules)).collect archive).2) := by
  induction capsules generalizing place with
  | nil => rfl
  | cons capsule rest inductionHypothesis =>
      obtain ⟨headSpelled, restSpelled⟩ := spells_cons.mp spelled
      rw [collect_of_next_some (next_of_spells shows headSpelled),
        inductionHypothesis restSpelled, totalSize_cons, Nat.add_assoc]
      rfl

end Collect

/-! ## Records and occupied bytes -/

/-- The place of the first record. -/
abbrev Container.firstPlace (container : Container) : Nat := container.firstOffset.value.toNat

theorem Container.firstPlace_le_one (container : Container) : container.firstPlace ≤ 1 := by
  unfold Container.firstPlace Container.firstOffset
  split
  · exact Nat.zero_le 1
  · exact Nat.le_refl 1

/-- Items that are records, with what follows them. -/
theorem recordsOf_map_ok_append (listed : List Record) (items : List Item) :
    (recordsOf (listed.map .ok ++ items)).outcome =
      (recordsOf items).outcome.map (listed ++ ·) := by
  induction listed with
  | nil =>
      rw [List.map_nil, List.nil_append]
      cases (recordsOf items).outcome with
      | ok rest => rfl
      | error stop => rfl
  | cons record rest inductionHypothesis =>
      simp only [List.map_cons, List.cons_append, recordsOf, Logged.outcome_bind,
        inductionHypothesis, Outcome.bind_ok]
      cases (recordsOf items).outcome with
      | ok more => rfl
      | error stop => rfl

section Listing

variable {archive : Archive} {container : Container} {bytes : Bytes} {capsules : List Capsule}

/-- Capsules that are spelled end where an offset reaches. -/
theorem Shows.finish_lt (shows : Shows archive container bytes)
    (spelled : Spells bytes container.firstPlace capsules) :
    container.firstPlace + totalSize capsules < 65536 := by
  have total := spelled.totalSize_le
  have first := container.firstPlace_le_one
  have size : bytes.length ≤ 65535 := by
    rw [shows.size]
    exact container.reachable
  omega

theorem collect_of_contains (shows : Shows archive container bytes)
    (contained : Contains bytes container.firstPlace capsules) :
    (Scan.start container).collect archive =
      ((recordsAt container.firstPlace capsules).map .ok,
        endedAt container (container.firstPlace + totalSize capsules)) := by
  show (walkAt container container.firstPlace).collect archive = _
  rw [collect_of_spells shows contained.spelled, collect_of_ends shows contained.ended,
    List.append_nil]

/-- The capsules of a container are listed in their order. -/
theorem records_of_contains (shows : Shows archive container bytes)
    (contained : Contains bytes container.firstPlace capsules) :
    (records archive container).outcome = .ok (recordsAt container.firstPlace capsules) := by
  have listed := recordsOf_map_ok_append (recordsAt container.firstPlace capsules) []
  rw [List.append_nil] at listed
  rw [records, collect_of_contains shows contained, listed]
  show Except.ok (_ ++ []) = _
  rw [List.append_nil]

/-- The occupied bytes are known exactly when the records are. -/
theorem usedBytes_outcome (archive : Archive) (container : Container) :
    (usedBytes archive container).outcome =
      (records archive container).outcome.map fun _ =>
        ((Scan.start container).collect archive).2.offset.value.toNat := by
  unfold usedBytes records
  rcases (Scan.start container).collect archive with ⟨items, last⟩
  simp only [Logged.outcome_bind]
  cases (recordsOf items).outcome with
  | ok listed => rfl
  | error stop => rfl

/-- The capsules and the padding before them are what is occupied. -/
theorem usedBytes_of_contains (shows : Shows archive container bytes)
    (contained : Contains bytes container.firstPlace capsules) :
    (usedBytes archive container).outcome =
      .ok (container.firstPlace + totalSize capsules) := by
  have finishLt := shows.finish_lt contained.spelled
  rw [usedBytes_outcome, records_of_contains shows contained, collect_of_contains shows contained]
  show Except.ok (container.firstPlace + totalSize capsules).toUInt16.toNat = _
  rw [toNat_toUInt16 finishLt]

/-- The refusal of a container whose list of capsules breaks off at `place`. -/
def breakRefusal (container : Container) (place : Nat) (length : UInt16) : Error :=
  .corruptRecord ⟨place.toUInt16⟩ length (breakReason container.capacity place length)

theorem records_of_breaks (shows : Shows archive container bytes) {length : UInt16}
    (spelled : Spells bytes container.firstPlace capsules)
    (broken : Breaks bytes (container.firstPlace + totalSize capsules) length) :
    (records archive container).outcome =
      Outcome.refuse (breakRefusal container (container.firstPlace + totalSize capsules)
        length) := by
  show (recordsOf ((walkAt container container.firstPlace).collect archive).1).outcome = _
  rw [collect_of_spells shows spelled, collect_of_breaks shows broken, recordsOf_map_ok_append]
  rfl

/-- A container whose records can be listed contains capsules. -/
theorem contains_of_records (shows : Shows archive container bytes) {listed : List Record}
    (answered : (records archive container).outcome = .ok listed) :
    ∃ capsules, Contains bytes container.firstPlace capsules ∧
      listed = recordsAt container.firstPlace capsules := by
  obtain ⟨capsules, spelled, ended | ⟨length, broken⟩⟩ :=
    exists_spelled bytes container.firstPlace
  · have contained : Contains bytes container.firstPlace capsules := ⟨spelled, ended⟩
    rw [records_of_contains shows contained] at answered
    exact ⟨capsules, contained, (Except.ok.inj answered).symm⟩
  · rw [records_of_breaks shows spelled broken] at answered
    contradiction

end Listing

/-! ## Listing and the format -/

/-- The records that capsules from `start` on are listed as, said of each of
them alone: its offset counts the capsules before it, and its header is what
the six bytes at its offset stand for. -/
structure Lists (bytes : Bytes) (start : Nat) (capsules : List Capsule)
    (listed : List Record) : Prop where
  count : listed.length = capsules.length
  offset : ∀ (index : Nat) (record : Record), listed[index]? = some record →
    record.offset.value.toNat = start + totalSize (capsules.take index)
  header : ∀ (index : Nat) (record : Record), listed[index]? = some record →
    Header.decode? ((bytes.drop record.offset.value.toNat).take headerSize) = some record.header

attribute [ext] Offset Record

section Format

variable {bytes : Bytes} {start : Nat} {capsules : List Capsule}

theorem lists_recordsAt (spelled : Spells bytes start capsules)
    (reachable : start + totalSize capsules < 65536) :
    Lists bytes start capsules (recordsAt start capsules) := by
  induction capsules generalizing start with
  | nil => exact ⟨rfl, by simp [recordsAt], by simp [recordsAt]⟩
  | cons capsule rest inductionHypothesis =>
      obtain ⟨headSpelled, restSpelled⟩ := spells_cons.mp spelled
      rw [totalSize_cons] at reachable
      have behind := inductionHypothesis restSpelled (by omega)
      have startEq : start.toUInt16.toNat = start := toNat_toUInt16 (by omega)
      refine ⟨by rw [recordsAt, List.length_cons, List.length_cons, behind.count], ?_, ?_⟩
      · intro index record present
        cases index with
        | zero =>
            rw [← Option.some.inj present]
            exact startEq
        | succ index =>
            rw [behind.offset index record present, List.take_succ_cons, totalSize_cons,
              Nat.add_assoc]
      · intro index record present
        cases index with
        | zero =>
            rw [← Option.some.inj present]
            simp only [startEq]
            rw [headSpelled.drop_eq, List.take_left' (Header.length_encode _),
              Header.decode?_encode]
        | succ index => exact behind.header index record present

/-- Capsules are listed in one way. -/
theorem Lists.unique {left right : List Record} (leftLists : Lists bytes start capsules left)
    (rightLists : Lists bytes start capsules right) : left = right := by
  apply List.ext_getElem (by rw [leftLists.count, rightLists.count])
  intro index leftLt rightLt
  have leftAt := List.getElem?_eq_getElem leftLt
  have rightAt := List.getElem?_eq_getElem rightLt
  have offsetEq : left[index].offset = right[index].offset := by
    have leftOffset := leftLists.offset index _ leftAt
    rw [← rightLists.offset index _ rightAt] at leftOffset
    exact Offset.ext (UInt16.toNat_inj.mp leftOffset)
  have headerEq : left[index].header = right[index].header := by
    have leftHeader := leftLists.header index _ leftAt
    rw [offsetEq, rightLists.header index _ rightAt] at leftHeader
    exact (Option.some.inj leftHeader).symm
  exact Record.ext offsetEq headerEq

/-- Listing a container and counting its occupied bytes succeed exactly on the
bytes that contain capsules, and answer for these. On all other bytes both
refuse the first place where the list of capsules breaks off. -/
theorem listing_accepts_exactly_the_format (image : Flash.Image) (container : Container)
    (inside : image.Holds container.entry) (addressable : image.memoryEnd < UInt32.size) :
    (∀ (listed : List Record) (used : Nat),
      ((records image.archive container).outcome = .ok listed ∧
          (usedBytes image.archive container).outcome = .ok used) ↔
        ∃ capsules,
          Contains (image.region container.entry) container.firstPlace capsules ∧
          Lists (image.region container.entry) container.firstPlace capsules listed ∧
          used = container.firstPlace + totalSize capsules) ∧
    ((¬ ∃ capsules, Contains (image.region container.entry) container.firstPlace capsules) →
      ∃ (capsules : List Capsule) (offset : Offset) (length : UInt16),
        Spells (image.region container.entry) container.firstPlace capsules ∧
        offset.value.toNat = container.firstPlace + totalSize capsules ∧
        Breaks (image.region container.entry) offset.value.toNat length ∧
        (records image.archive container).outcome =
          Outcome.refuse (.corruptRecord offset length
            (breakReason container.capacity offset.value.toNat length)) ∧
        (usedBytes image.archive container).outcome =
          Outcome.refuse (.corruptRecord offset length
            (breakReason container.capacity offset.value.toNat length))) := by
  have shows := shows_region inside addressable
  refine ⟨?_, ?_⟩
  · intro listed used
    constructor
    · rintro ⟨answeredList, answeredUsed⟩
      obtain ⟨capsules, contained, listedEq⟩ := contains_of_records shows answeredList
      rw [usedBytes_of_contains shows contained] at answeredUsed
      refine ⟨capsules, contained, ?_, (Except.ok.inj answeredUsed).symm⟩
      rw [listedEq]
      exact lists_recordsAt contained.spelled (shows.finish_lt contained.spelled)
    · rintro ⟨capsules, contained, lists, usedEq⟩
      have placed := lists_recordsAt contained.spelled (shows.finish_lt contained.spelled)
      rw [records_of_contains shows contained, usedBytes_of_contains shows contained, usedEq,
        lists.unique placed]
      exact ⟨rfl, rfl⟩
  · intro notContained
    obtain ⟨capsules, spelled, ended | ⟨length, broken⟩⟩ :=
      exists_spelled (image.region container.entry) container.firstPlace
    · exact absurd ⟨capsules, spelled, ended⟩ notContained
    · have finishLt := shows.finish_lt spelled
      have offsetEq : (container.firstPlace + totalSize capsules).toUInt16.toNat =
          container.firstPlace + totalSize capsules := toNat_toUInt16 finishLt
      have refused := records_of_breaks shows spelled broken
      have usedRefused := usedBytes_outcome image.archive container
      rw [refused] at usedRefused
      refine ⟨capsules, ⟨(container.firstPlace + totalSize capsules).toUInt16⟩, length, spelled,
        offsetEq, ?_, ?_, ?_⟩
      · rw [offsetEq]
        exact broken
      · rw [refused, offsetEq]
        rfl
      · rw [usedRefused, offsetEq]
        rfl

/-- Eleven bytes at an odd address: padding, a capsule of eight bytes, and the
end of the list. -/
def oddImage : Flash.Image :=
  ⟨0x101, #[0xFF, 8, 0, 1, 2, 3, 4, 0x08, 0x95, 0, 0], [⟨⟨0x101⟩, 11, .capsuleBuffer⟩], none⟩

/-- The container that takes all of `oddImage`. -/
def oddContainer : Container := ⟨0, ⟨⟨0x101⟩, 11, .capsuleBuffer⟩, by decide⟩

/-- The capsule in `oddImage`. -/
def returnCapsule : Capsule := ⟨⟨8, ⟨1, 2, 3, 4⟩⟩, [0x08, 0x95], by decide⟩

theorem listing_at_odd_base :
    oddImage.Holds oddContainer.entry ∧ oddImage.memoryEnd < UInt32.size ∧
      (records oddImage.archive oddContainer).outcome = .ok [⟨⟨1⟩, ⟨8, ⟨1, 2, 3, 4⟩⟩⟩] ∧
      (usedBytes oddImage.archive oddContainer).outcome = .ok 9 := by
  have inside : oddImage.Holds oddContainer.entry := by decide
  have addressable : oddImage.memoryEnd < UInt32.size := by decide
  have spelled : Spells (oddImage.region oddContainer.entry) oddContainer.firstPlace
      [returnCapsule] := by
    unfold Spells
    decide
  have ended : Ends (oddImage.region oddContainer.entry)
      (oddContainer.firstPlace + totalSize [returnCapsule]) := by
    unfold Ends
    decide
  have listed := ((listing_accepts_exactly_the_format oddImage oddContainer inside
    addressable).1 [⟨⟨1⟩, ⟨8, ⟨1, 2, 3, 4⟩⟩⟩] 9).mpr
      ⟨[returnCapsule], ⟨spelled, ended⟩, lists_recordsAt spelled (by decide), by decide⟩
  exact ⟨inside, addressable, listed⟩

end Format

end CodeCapsules.Store
