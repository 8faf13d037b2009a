import CodeCapsules.Flash.Builder
import CodeCapsules.Proofs.Alignment

/-!
Contract: where a layout places its files.

Owns:
- `Places`, a stretch of building that adds files back to back;
- `Lays`, the image of a layout: files ahead, and the reserved one at the end.

Main statement: a layout that is built below the end of the addresses has its
reserved file last, with the capacity and the parity asked for, and passes the
check of images.

Does not own: which of the files a store takes for its container.
-/

namespace CodeCapsules.Flash

namespace Builder

variable {ε : Type}

/-- The address behind all that is placed, as a number of any size. -/
def finish (builder : Builder) : Nat := builder.origin.toNat + builder.memory.size

/-- From one builder to the other, files of these types are added, each behind
what was there before. -/
structure Places (types : List FileType) (before after : Builder) : Prop where
  origin : after.origin = before.origin
  finish : before.finish ≤ after.finish
  files : ∃ added, after.files = before.files ++ added ∧ added.map Entry.type = types ∧
    ∀ entry ∈ added, before.finish ≤ entry.base.value.toNat ∧
      entry.base.value.toNat + entry.size.toNat ≤ after.finish

section Placing

variable {before middle after : Builder} {types others : List FileType} {type : FileType}
  {contents : Bytes}

theorem Places.refl (builder : Builder) : Places [] builder builder :=
  ⟨rfl, Nat.le_refl _, [], (List.append_nil _).symm, rfl, nofun⟩

theorem Places.trans (first : Places types before middle) (second : Places others middle after) :
    Places (types ++ others) before after := by
  obtain ⟨added, addedEq, addedTypes, addedInside⟩ := first.files
  obtain ⟨further, furtherEq, furtherTypes, furtherInside⟩ := second.files
  have firstLe := first.finish
  have secondLe := second.finish
  refine ⟨second.origin.trans first.origin, by omega, added ++ further, ?_, ?_, ?_⟩
  · rw [furtherEq, addedEq, List.append_assoc]
  · rw [List.map_append, addedTypes, furtherTypes]
  · intro entry member
    rcases List.mem_append.mp member with early | late
    · have inside := addedInside entry early
      omega
    · have inside := furtherInside entry late
      omega

theorem size_appendList (memory : Array UInt8) (contents : Bytes) :
    (memory.appendList contents).size = memory.size + contents.length := by
  rw [← Array.length_toList]
  simp

theorem toNat_nextAddress {address : CodeAddress} (addressable : before.finish < UInt32.size)
    (next : (before.nextAddress : Outcome ε CodeAddress) = .ok address) :
    address.value.toNat = before.finish := by
  unfold finish at addressable ⊢
  obtain ⟨sum, summed, returned⟩ := Outcome.bind_eq_ok.mp next
  obtain ⟨-, rfl⟩ := sum32_eq_ok_iff.mp summed
  rw [← Except.ok.inj returned]
  exact toNat_add_place _ _ addressable

/-- A file that is placed starts where the others end. -/
theorem file_eq_ok (accepted : (before.file type contents : Outcome ε Builder) = .ok after)
    (addressable : after.finish < UInt32.size) :
    after.origin = before.origin ∧ after.finish = before.finish + contents.length ∧
      ∃ entry, after.files = before.files ++ [entry] ∧ entry.type = type ∧
        entry.base.value.toNat = before.finish ∧ entry.size.toNat = contents.length := by
  obtain ⟨base, next, returned⟩ := Outcome.bind_eq_ok.mp accepted
  obtain rfl := Except.ok.inj returned
  have finishEq : before.origin.toNat + (before.memory.appendList contents).size =
      before.finish + contents.length := by
    rw [finish, size_appendList, Nat.add_assoc]
  unfold finish at addressable ⊢
  rw [finishEq] at addressable ⊢
  refine ⟨rfl, rfl, _, rfl, rfl, toNat_nextAddress (by omega) next, ?_⟩
  exact toNat_toUInt32 (by omega)

theorem places_file (accepted : (before.file type contents : Outcome ε Builder) = .ok after)
    (addressable : after.finish < UInt32.size) : Places [type] before after := by
  obtain ⟨origin, finishEq, entry, filesEq, typeEq, baseEq, sizeEq⟩ :=
    file_eq_ok accepted addressable
  refine ⟨origin, by omega, [entry], filesEq, by rw [← typeEq]; rfl, ?_⟩
  intro other member
  rw [List.mem_singleton.mp member]
  omega

theorem finish_le_of_file
    (accepted : (before.file type contents : Outcome ε Builder) = .ok after) :
    before.finish ≤ after.finish := by
  obtain ⟨base, -, returned⟩ := Outcome.bind_eq_ok.mp accepted
  obtain rfl := Except.ok.inj returned
  show _ ≤ before.origin.toNat + (before.memory.appendList contents).size
  rw [finish, size_appendList]
  omega

end Placing

end Builder

namespace Layout

open Builder (Places)

variable {ε : Type} {before after : Builder}

theorem finish_le_of_placeFiles {specs : List FileSpec}
    (accepted : (placeFiles before specs : Outcome ε Builder) = .ok after) :
    before.finish ≤ after.finish := by
  induction specs generalizing before with
  | nil => exact Nat.le_of_eq (congrArg Builder.finish (Except.ok.inj accepted))
  | cons spec rest inductionHypothesis =>
      obtain ⟨middle, placed, others⟩ := Outcome.bind_eq_ok.mp accepted
      exact Nat.le_trans (Builder.finish_le_of_file placed) (inductionHypothesis others)

/-- Files are placed in the order in which they are listed. -/
theorem places_placeFiles {specs : List FileSpec}
    (accepted : (placeFiles before specs : Outcome ε Builder) = .ok after)
    (addressable : after.finish < UInt32.size) :
    Places (specs.map FileSpec.type) before after := by
  induction specs generalizing before with
  | nil =>
      rw [← Except.ok.inj accepted]
      exact .refl _
  | cons spec rest inductionHypothesis =>
      obtain ⟨middle, placed, others⟩ := Outcome.bind_eq_ok.mp accepted
      have middleLe := finish_le_of_placeFiles others
      exact (Builder.places_file placed (by omega)).trans (inductionHypothesis others)

/-- Alignment adds no file, and reaches the parity asked for. -/
theorem align_eq_ok {oddBase : Bool}
    (accepted : (align before oddBase : Outcome ε Builder) = .ok after)
    (addressable : after.finish < UInt32.size) :
    Places [] before after ∧ (after.finish % 2 = 1 ↔ oddBase = true) := by
  obtain ⟨next, addressed, returned⟩ := Outcome.bind_eq_ok.mp accepted
  have padded : (before.padding 1).finish = before.finish + 1 := by
    show before.origin.toNat + (before.memory.appendList (List.replicate 1 erasedByte)).size = _
    rw [Builder.size_appendList, Builder.finish, List.length_replicate, Nat.add_assoc]
  have aligned (addressable : before.finish < UInt32.size) :
      next.isWordAligned = true ↔ before.finish % 2 = 0 := by
    rw [CodeAddress.isWordAligned_iff, Builder.toNat_nextAddress addressable addressed]
  obtain rfl := Except.ok.inj returned
  by_cases wrong : next.isWordAligned = oddBase
  · rw [if_pos wrong] at addressable ⊢
    rw [padded] at addressable ⊢
    refine ⟨⟨rfl, by omega, [], (List.append_nil _).symm, rfl, nofun⟩, ?_⟩
    rw [← wrong, aligned (by omega)]
    omega
  · rw [if_neg wrong] at addressable ⊢
    refine ⟨.refl _, ?_⟩
    cases oddBase with
    | false =>
        rw [Bool.not_eq_false, aligned addressable] at wrong
        simp [wrong]
    | true =>
        rw [aligned addressable] at wrong
        simp only [iff_true]
        omega

/-- The image of a layout: the files ahead in their order, and behind all of
them, up to the end of memory, the reserved one. -/
structure Lays (layout : Layout) (image : Image) (ahead : List Entry) (reserved : Entry) :
    Prop where
  files : image.files = ahead ++ [reserved]
  types : ahead.map Entry.type = layout.files.map FileSpec.type
  ahead : ∀ entry ∈ ahead, image.origin.toNat ≤ entry.base.value.toNat ∧
    entry.base.value.toNat + entry.size.toNat ≤ reserved.base.value.toNat
  behind : image.origin.toNat ≤ reserved.base.value.toNat
  finish : reserved.base.value.toNat + reserved.size.toNat = image.memoryEnd
  type : reserved.type = layout.type
  size : reserved.size = layout.capacity
  odd : reserved.base.value.toNat % 2 = 1 ↔ layout.oddBase = true
  least : minimumCapacity ≤ layout.capacity.toNat
  most : layout.capacity.toNat ≤ maximumCapacity
  idle : image.cursor = none

theorem exists_lays {layout : Layout} {image : Image} (built : layout.build = .ok image)
    (addressable : image.memoryEnd < UInt32.size) :
    ∃ ahead reserved, layout.Lays image ahead reserved := by
  unfold build at built
  split at built
  · contradiction
  split at built
  · contradiction
  rename_i least most
  obtain ⟨placed, placing, built⟩ := Outcome.bind_eq_ok.mp built
  obtain ⟨aligned, aligning, built⟩ := Outcome.bind_eq_ok.mp built
  obtain ⟨filled, filling, returned⟩ := Outcome.bind_eq_ok.mp built
  obtain rfl := Except.ok.inj returned
  have filledLt : filled.finish < UInt32.size := addressable
  obtain ⟨origin, finishEq, reserved, filesEq, typeEq, baseEq, sizeEq⟩ :=
    Builder.file_eq_ok filling filledLt
  obtain ⟨alignPlaces, parity⟩ := align_eq_ok aligning (by omega)
  have alignedLe := alignPlaces.finish
  obtain ⟨placedOrigin, placedLe, ahead, aheadEq, types, inside⟩ :=
    (places_placeFiles placing (by omega)).trans alignPlaces
  rw [List.append_nil] at types
  rw [List.length_replicate] at finishEq sizeEq
  have originEq : filled.origin = layout.origin := origin.trans placedOrigin
  have startEq : (Builder.start layout.origin).finish = layout.origin.toNat := rfl
  rw [startEq] at placedLe inside
  have filledFiles : filled.files = ahead ++ [reserved] := by
    rw [filesEq, aheadEq]
    rfl
  refine ⟨ahead, reserved, filledFiles, types, ?_, ?_, ?_, typeEq, UInt32.toNat_inj.mp sizeEq, ?_,
    Nat.not_lt.mp least, Nat.not_lt.mp most, rfl⟩
  · intro entry member
    rw [baseEq]
    show filled.origin.toNat ≤ _ ∧ _
    rw [originEq]
    exact inside entry member
  · show filled.origin.toNat ≤ _
    rw [originEq, baseEq]
    exact placedLe
  · rw [baseEq, sizeEq]
    exact finishEq.symm
  · rw [baseEq]
    exact parity

namespace Lays

variable {layout : Layout} {image : Image} {ahead : List Entry} {reserved : Entry}

/-- The image of a layout passes the check of images. -/
theorem validate (lays : layout.Lays image ahead reserved) : image.validate = .ok () := by
  apply Image.validateFrom_eq_ok.mpr
  intro entry member
  have finish := lays.finish
  rw [lays.files] at member
  rcases List.mem_append.mp member with early | last
  · have before := lays.ahead entry early
    unfold Image.Holds
    omega
  · rw [List.mem_singleton.mp last]
    exact ⟨lays.behind, Nat.le_of_eq finish⟩

theorem length_ahead (lays : layout.Lays image ahead reserved) :
    ahead.length = layout.files.length := by
  rw [← List.length_map Entry.type, lays.types, List.length_map]

end Lays

end Layout

end CodeCapsules.Flash
