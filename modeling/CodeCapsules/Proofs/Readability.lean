import CodeCapsules.Flash.Builder
import CodeCapsules.Proofs.Region

/-!
Contract: the check of an image as a promise to the readers of its files.

The check compares the ends of a file with the ends of memory. Reading a file
first looks up the index of its base, and only then compares the end. The two
differ for an empty file that starts where memory ends: the file lies inside
memory, and its base has no index.

Owns:
- `Trails`, the empty file behind the last byte of memory;
- the files that can be read, in terms of the check.

Main statement: an image passes its check exactly if every file can be read or
trails memory. Then the files that can be read answer their own bytes of memory.

Does not own: files whose end is not an address.
-/

namespace CodeCapsules.Flash.Image

/-- An empty file that starts where memory ends. -/
def Trails (image : Image) (entry : Entry) : Prop :=
  entry.size.toNat = 0 ∧ entry.base.value.toNat = image.memoryEnd

instance (image : Image) (entry : Entry) : Decidable (image.Trails entry) :=
  inferInstanceAs (Decidable (_ ∧ _))

section Reading

variable {image : Image} {entry : Entry} {index : Nat}

theorem Trails.holds (trails : image.Trails entry) : image.Holds entry := by
  obtain ⟨empty, atEnd⟩ := trails
  refine ⟨?_, by omega⟩
  rw [atEnd]
  exact Nat.le_add_right _ _

/-- A file inside memory that does not trail it starts at one of its bytes. -/
theorem Holds.base_lt (holds : image.Holds entry) (untrailed : ¬image.Trails entry) :
    entry.base.value.toNat < image.memoryEnd := by
  obtain ⟨-, finishLe⟩ := holds
  unfold Trails at untrailed
  omega

theorem fileBytes_of_trails (filed : image.file index = .ok entry)
    (finishes : entry.base.value.toNat + entry.size.toNat < UInt32.size)
    (trails : image.Trails entry) :
    image.fileBytes index = Outcome.refuse (.addressOutOfRange entry.base) := by
  obtain ⟨-, atEnd⟩ := trails
  rw [fileBytes_eq filed finishes, if_neg (by omega)]

theorem fileBytes_eq_ok_iff (filed : image.file index = .ok entry)
    (finishes : entry.base.value.toNat + entry.size.toNat < UInt32.size) {bytes : Bytes} :
    image.fileBytes index = .ok bytes ↔
      image.Holds entry ∧ ¬image.Trails entry ∧ bytes = image.region entry := by
  constructor
  · intro answered
    rw [fileBytes_eq filed finishes] at answered
    split at answered
    · rename_i started
      split at answered
      · rename_i inside
        refine ⟨⟨started.1, inside⟩, ?_, (Except.ok.inj answered).symm⟩
        intro trails
        have atEnd := trails.2
        omega
      · contradiction
    · contradiction
  · rintro ⟨holds, untrailed, rfl⟩
    rw [fileBytes_eq filed finishes, if_pos ⟨holds.1, holds.base_lt untrailed⟩, if_pos holds.2]

end Reading

/-- The check of an image promises that every file can be read, except for
files that trail memory. Those pass the check and are refused by their base. -/
theorem check_promises_all_but_trailing_files (image : Image)
    (finishes : ∀ entry ∈ image.files,
      entry.base.value.toNat + entry.size.toNat < UInt32.size) :
    (image.validate = .ok () ↔
      ∀ index entry, image.file index = .ok entry →
        (∃ bytes, image.fileBytes index = .ok bytes) ∨ image.Trails entry) ∧
    (image.validate = .ok () →
      ∀ index entry, image.file index = .ok entry →
        if image.Trails entry then
          image.fileBytes index = Outcome.refuse (.addressOutOfRange entry.base)
        else
          ∃ bytes, image.fileBytes index = .ok bytes ∧ bytes.length = entry.size.toNat ∧
            ∀ place < entry.size.toNat, bytes[place]? =
              image.memory[entry.base.value.toNat - image.origin.toNat + place]?) := by
  have finishesAt : ∀ {index entry}, image.file index = .ok entry →
      entry.base.value.toNat + entry.size.toNat < UInt32.size :=
    fun filed => finishes _ (List.mem_of_getElem? (file_eq_ok.mp filed))
  have holds_iff : ∀ {index entry}, image.file index = .ok entry →
      (image.Holds entry ↔ (∃ bytes, image.fileBytes index = .ok bytes) ∨ image.Trails entry) := by
    intro index entry filed
    constructor
    · intro holds
      by_cases trails : image.Trails entry
      · exact .inr trails
      · exact .inl ⟨_, (fileBytes_eq_ok_iff filed (finishesAt filed)).mpr ⟨holds, trails, rfl⟩⟩
    · rintro (⟨bytes, answered⟩ | trails)
      · exact ((fileBytes_eq_ok_iff filed (finishesAt filed)).mp answered).1
      · exact trails.holds
  refine ⟨?_, ?_⟩
  · rw [validate_eq_ok_iff]
    exact forall₃_congr fun index entry filed => holds_iff filed
  · intro valid index entry filed
    have holds := holds_of_validate valid filed
    split
    · rename_i trails
      exact fileBytes_of_trails filed (finishesAt filed) trails
    · rename_i untrailed
      refine ⟨image.region entry, ?_, length_region holds, ?_⟩
      · exact (fileBytes_eq_ok_iff filed (finishesAt filed)).mpr ⟨holds, untrailed, rfl⟩
      · intro place inside
        exact getElem?_region inside

/-- Files that touch both ends of memory, the empty ones at either end among them. -/
def edgeImage : Image :=
  ⟨0x300, #[1, 2, 3], [⟨⟨0x300⟩, 3, .library⟩, ⟨⟨0x300⟩, 0, .library⟩, ⟨⟨0x302⟩, 1, .library⟩,
    ⟨⟨0x303⟩, 0, .library⟩], none⟩

theorem edge_files_answer_their_bytes :
    edgeImage.validate = .ok () ∧ edgeImage.fileBytes 1 = .ok [] ∧
      edgeImage.fileBytes 2 = .ok [3] ∧
      edgeImage.fileBytes 3 = Outcome.refuse (.addressOutOfRange ⟨0x303⟩) := by
  have finishes : ∀ entry ∈ edgeImage.files,
      entry.base.value.toNat + entry.size.toNat < UInt32.size := by decide
  have valid : edgeImage.validate = .ok () := by decide
  have answers := (check_promises_all_but_trailing_files edgeImage finishes).2 valid
  obtain ⟨empty, emptyRead, emptyLength, -⟩ := answers 1 ⟨⟨0x300⟩, 0, .library⟩ rfl
  obtain ⟨last, lastRead, lastLength, lastAt⟩ := answers 2 ⟨⟨0x302⟩, 1, .library⟩ rfl
  have lastFirst : last[0]? = some 3 := lastAt 0 (by decide)
  refine ⟨valid, ?_, ?_, answers 3 ⟨⟨0x303⟩, 0, .library⟩ rfl⟩
  · rw [emptyRead, List.eq_nil_of_length_eq_zero emptyLength]
  · obtain ⟨byte, rfl⟩ := List.length_eq_one_iff.mp lastLength
    have byteEq : byte = 3 := Option.some.inj lastFirst
    rw [lastRead, byteEq]

/-- A file of two bytes, and an empty file behind it. -/
def trailedImage : Image :=
  ⟨0x300, #[1, 2], [⟨⟨0x300⟩, 2, .library⟩, ⟨⟨0x302⟩, 0, .library⟩], none⟩

/-- An image that is built with an empty last file passes its check, and the
file cannot be read. -/
theorem empty_last_file_is_refused :
    (do
      let first ← (Builder.start 0x300).file .library [1, 2]
      let second ← first.file .library []
      return second.build : Outcome Error Image) = .ok trailedImage ∧
      trailedImage.memoryEnd < UInt32.size ∧ trailedImage.validate = .ok () ∧
      trailedImage.fileBytes 0 = .ok [1, 2] ∧
      trailedImage.fileBytes 1 = Outcome.refuse (.addressOutOfRange ⟨0x302⟩) := by
  decide

end CodeCapsules.Flash.Image
