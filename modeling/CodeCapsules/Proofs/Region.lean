import CodeCapsules.Flash.Image
import CodeCapsules.Proofs.Operation
import CodeCapsules.Proofs.Splice

/-!
Contract: the bytes of a file inside an image.

Owns:
- `region`, the bytes that memory holds for a table entry;
- reading a byte of a file through its address;
- the region after a part of it was overwritten;
- what the check of an image says about each of its files;
- what reading a file answers, also for a file that leaves memory.

Does not own: who writes, and through which session.
-/

namespace CodeCapsules

theorem sum32_eq_ok {ε : Type} {left right : UInt32}
    (fits : left.toNat + right.toNat < UInt32.size) :
    (sum32 left right : Outcome ε UInt32) = .ok (left + right) := if_pos fits

theorem sum32_eq_ok_iff {ε : Type} {left right sum : UInt32} :
    (sum32 left right : Outcome ε UInt32) = .ok sum ↔
      left.toNat + right.toNat < UInt32.size ∧ sum = left + right := by
  unfold sum32
  by_cases fits : left.toNat + right.toNat < UInt32.size
  · simp [fits, eq_comm]
  · simp [fits, Outcome.halt]

theorem toNat_toUInt32 {number : Nat} (small : number < UInt32.size) :
    number.toUInt32.toNat = number := by
  rw [UInt32.toNat_ofNat', Nat.mod_eq_of_lt small]

/-- A place behind an address, as long as it is an address. -/
theorem toNat_add_place (base : UInt32) (place : Nat)
    (fits : base.toNat + place < UInt32.size) :
    (base + place.toUInt32).toNat = base.toNat + place := by
  rw [UInt32.toNat_add, toNat_toUInt32 (by omega), Nat.mod_eq_of_lt fits]

theorem sum32_place {ε : Type} {base : UInt32} {place : Nat}
    (fits : base.toNat + place < UInt32.size) :
    (sum32 base place.toUInt32 : Outcome ε UInt32) = .ok (base + place.toUInt32) := by
  apply sum32_eq_ok
  rw [toNat_toUInt32 (by omega)]
  exact fits

/-- A place that an offset reaches is kept by it. -/
theorem toNat_toUInt16 {place : Nat} (reachable : place < 65536) :
    place.toUInt16.toNat = place := by
  rw [UInt16.toNat_ofNat', Nat.mod_eq_of_lt reachable]

theorem toUInt32_toUInt16 {place : Nat} (reachable : place < 65536) :
    place.toUInt16.toUInt32 = place.toUInt32 := by
  apply UInt32.toNat_inj.mp
  rw [UInt16.toNat_toUInt32, toNat_toUInt16 reachable, UInt32.toNat_ofNat',
    Nat.mod_eq_of_lt (by omega)]

/-- A range that a file covers ends where the file does, at the latest. -/
theorem Flash.Entry.covers_eq_true {ε : Type} {entry : Flash.Entry} {address : CodeAddress}
    {size : UInt32} (covered : (entry.covers address size : Outcome ε Bool) = .ok true) :
    entry.base.value.toNat ≤ address.value.toNat ∧
      address.value.toNat + size.toNat ≤ entry.base.value.toNat + entry.size.toNat := by
  unfold Entry.covers at covered
  split at covered
  · rename_i baseLe
    obtain ⟨finish, finished, decided⟩ := Outcome.bind_eq_ok.mp covered
    obtain ⟨sum, summed, finishEq⟩ := Outcome.bind_eq_ok.mp finished
    obtain ⟨fits, sumEq⟩ := sum32_eq_ok_iff.mp summed
    have ends := of_decide_eq_true (Except.ok.inj decided)
    rw [← Except.ok.inj finishEq, sumEq, UInt32.toNat_add, Nat.mod_eq_of_lt fits] at ends
    exact ⟨UInt32.le_iff_toNat_le.mp baseLe, ends⟩
  · exact absurd (Except.ok.inj covered) (by simp)

namespace Flash.Image

/-- Where in memory a file starts. -/
def regionStart (image : Image) (entry : Entry) : Nat :=
  entry.base.value.toNat - image.origin.toNat

/-- The bytes that memory holds for a file. -/
def region (image : Image) (entry : Entry) : Bytes :=
  (image.memory.toList.drop (image.regionStart entry)).take entry.size.toNat

section Region

variable {image : Image} {entry : Entry}

theorem regionEnd_le (holds : image.Holds entry) :
    image.regionStart entry + entry.size.toNat ≤ image.memory.size := by
  obtain ⟨startLe, finishLe⟩ := holds
  unfold memoryEnd at finishLe
  unfold regionStart
  omega

theorem length_region (holds : image.Holds entry) :
    (image.region entry).length = entry.size.toNat := by
  have inside := regionEnd_le holds
  simp only [region, List.length_take, List.length_drop, Array.length_toList]
  omega

theorem getElem?_region {place : Nat} (inside : place < entry.size.toNat) :
    (image.region entry)[place]? = image.memory[image.regionStart entry + place]? := by
  rw [region, List.getElem?_take_of_lt inside, List.getElem?_drop, Array.getElem?_toList]

/-- An address has an index exactly if it lies inside memory. -/
theorem indexOf_eq (address : CodeAddress) :
    image.indexOf address =
      if image.origin.toNat ≤ address.value.toNat ∧ address.value.toNat < image.memoryEnd then
        .ok (address.value.toNat - image.origin.toNat)
      else .error (.addressOutOfRange address) := by
  unfold indexOf memoryEnd
  refine if_congr ?_ rfl rfl
  rw [UInt32.le_iff_toNat_le]
  omega

theorem indexOf_eq_ok {address : CodeAddress} {index : Nat}
    (indexed : image.indexOf address = .ok index) :
    image.origin.toNat ≤ address.value.toNat ∧ index < image.memory.size ∧
      index = address.value.toNat - image.origin.toNat := by
  unfold indexOf at indexed
  split at indexed
  · rename_i inside
    have indexEq := (Except.ok.inj indexed).symm
    rw [indexEq]
    exact ⟨UInt32.le_iff_toNat_le.mp inside.1, inside.2, rfl⟩
  · contradiction

/-- The index of an address that lies a number of places into memory. -/
theorem indexOf_place (base : UInt32) (place : Nat) (startLe : image.origin.toNat ≤ base.toNat)
    (inside : base.toNat + place < image.memoryEnd)
    (addressable : image.memoryEnd < UInt32.size) :
    image.indexOf ⟨base + place.toUInt32⟩ = .ok (base.toNat - image.origin.toNat + place) := by
  have value := toNat_add_place base place (by omega)
  unfold memoryEnd at inside addressable
  unfold indexOf
  simp only [value]
  rw [if_pos ⟨UInt32.le_iff_toNat_le.mpr (by omega), by omega⟩]
  congr 1
  omega

/-- The address behind memory has no index. -/
theorem indexOf_memoryEnd {address : CodeAddress} (atEnd : address.value.toNat = image.memoryEnd) :
    image.indexOf address = .error (.addressOutOfRange address) := by
  rw [indexOf_eq, if_neg (by omega)]

/-- A byte of a file is read at its place behind the base. -/
theorem readByte_region {place : Nat} {byte : UInt8} (holds : image.Holds entry)
    (addressable : image.memoryEnd < UInt32.size)
    (present : (image.region entry)[place]? = some byte) :
    image.readByte ⟨entry.base.value + place.toUInt32⟩ = .ok byte := by
  have inside : place < entry.size.toNat := by
    rw [← length_region holds]
    exact (List.getElem?_eq_some_iff.mp present).1
  have index := indexOf_place entry.base.value place holds.1 (by have := holds.2; omega) addressable
  rw [getElem?_region inside, regionStart] at present
  unfold readByte
  simp only [index, bind, Except.bind, present]

/-- Overwriting bytes of a file splices its region. -/
theorem region_overwrite (holds : image.Holds entry) {place : Nat} {chunk : Bytes}
    (fits : place + chunk.length ≤ entry.size.toNat) (cursor : Option Cursor) :
    region { image with
        memory := Bytes.overwrite image.memory (image.regionStart entry + place) chunk
        cursor } entry =
      Bytes.splice (image.region entry) place chunk := by
  have inside := regionEnd_le holds
  have regionLength := length_region holds
  apply List.ext_getElem?
  intro index
  rw [Bytes.getElem?_splice (by omega)]
  by_cases indexLt : index < entry.size.toNat
  · rw [getElem?_region indexLt, getElem?_region indexLt]
    show (Bytes.overwrite image.memory (image.regionStart entry + place) chunk)[
      image.regionStart entry + index]? = _
    rw [Bytes.getElem?_overwrite _ _ _ (by omega)]
    by_cases covered : place ≤ index ∧ index < place + chunk.length
    · rw [if_pos (by omega), if_pos covered]
      congr 1
      omega
    · rw [if_neg (by omega), if_neg covered]
  · have writtenLength :
        (region { image with
          memory := Bytes.overwrite image.memory (image.regionStart entry + place) chunk
          cursor } entry).length ≤ entry.size.toNat := by
      rw [region, List.length_take]
      omega
    rw [if_neg (by omega), List.getElem?_eq_none (by omega), List.getElem?_eq_none (by omega)]

/-- What reading a file answers, whether the file lies inside memory or not. -/
theorem fileBytes_eq {index : Nat} (filed : image.file index = .ok entry)
    (finishes : entry.base.value.toNat + entry.size.toNat < UInt32.size) :
    image.fileBytes index =
      if image.origin.toNat ≤ entry.base.value.toNat ∧
          entry.base.value.toNat < image.memoryEnd then
        if entry.base.value.toNat + entry.size.toNat ≤ image.memoryEnd then
          .ok (image.region entry)
        else Outcome.refuse (.addressOutOfRange ⟨entry.base.value + entry.size⟩)
      else Outcome.refuse (.addressOutOfRange entry.base) := by
  have finish : (entry.finish : Outcome Error CodeAddress) =
      .ok ⟨entry.base.value + entry.size⟩ := by
    unfold Entry.finish
    rw [sum32_eq_ok finishes]
    rfl
  unfold fileBytes
  rw [filed, Outcome.ofExcept_ok, Outcome.bind_ok, indexOf_eq]
  by_cases started : image.origin.toNat ≤ entry.base.value.toNat ∧
      entry.base.value.toNat < image.memoryEnd
  · rw [if_pos started, if_pos started, Outcome.ofExcept_ok, Outcome.bind_ok, finish,
      Outcome.bind_ok]
    have fits : entry.base.value.toNat - image.origin.toNat + entry.size.toNat ≤
        image.memory.size ↔
          entry.base.value.toNat + entry.size.toNat ≤ image.memoryEnd := by
      unfold memoryEnd
      omega
    refine if_congr fits ?_ rfl
    show Except.ok _ = Except.ok _
    congr 1
    simp only [region, regionStart, Array.toList_extract, List.extract_eq_take_drop]
    congr 1
    omega
  · rw [if_neg started, if_neg started]
    rfl

/-- The region of a file is what reading the file answers, for a file that
starts inside memory. -/
theorem fileBytes_eq_region {index : Nat} (filed : image.file index = .ok entry)
    (holds : image.Holds entry) (addressable : image.memoryEnd < UInt32.size)
    (nonempty : 0 < entry.size.toNat) :
    image.fileBytes index = .ok (image.region entry) := by
  obtain ⟨startLe, finishLe⟩ := holds
  rw [fileBytes_eq filed (by omega), if_pos (by omega), if_pos finishLe]

end Region

/-! ## The check of an image -/

theorem validateFrom_eq_ok {image : Image} {index : Nat} {entries : List Entry} :
    image.validateFrom index entries = .ok () ↔ ∀ entry ∈ entries, image.Holds entry := by
  induction entries generalizing index with
  | nil => simp [validateFrom]
  | cons head tail inductionHypothesis =>
      unfold validateFrom
      by_cases headHolds : image.Holds head
      · rw [if_pos headHolds, inductionHypothesis, List.forall_mem_cons]
        exact (and_iff_right headHolds).symm
      · rw [if_neg headHolds, List.forall_mem_cons]
        exact ⟨nofun, fun held => absurd held.1 headHolds⟩

theorem file_eq_ok {image : Image} {index : Nat} {entry : Entry} :
    image.file index = .ok entry ↔ image.files[index]? = some entry := by
  unfold file
  cases image.files[index]? <;> simp

/-- An image passes its check exactly if every file lies inside memory. -/
theorem validate_eq_ok_iff {image : Image} :
    image.validate = .ok () ↔
      ∀ index entry, image.file index = .ok entry → image.Holds entry := by
  rw [validate, validateFrom_eq_ok]
  constructor
  · intro held index entry filed
    exact held entry (List.mem_of_getElem? (file_eq_ok.mp filed))
  · intro held entry member
    obtain ⟨index, found⟩ := List.mem_iff_getElem?.mp member
    exact held index entry (file_eq_ok.mpr found)

theorem holds_of_validate {image : Image} {index : Nat} {entry : Entry}
    (valid : image.validate = .ok ()) (filed : image.file index = .ok entry) :
    image.Holds entry := validate_eq_ok_iff.mp valid index entry filed

end Flash.Image

end CodeCapsules
