import CodeCapsules.Proofs.Fallible
import CodeCapsules.Proofs.Handles

/-!
Contract: appends keep every record that is there, whatever calls the device
refuses.

Owns:
- `yielded`, the records of a walk through an image, whether or not the walk
  ends with an error;
- `recordBytes`, the header and the code of a record;
- what one append and a run of appends leave of both.

Main statement: over a run of appends the records only become more, and the
bytes of the old ones stay as they are.

Does not own: which of the appends were answered, and with what.
-/

namespace CodeCapsules.Store

open Flash (Backed Device Fallible FaultPlan FaultyDevice Image)

/-- The records that a walk through an image yields before it ends or fails. -/
def yielded (container : Container) (image : Image) : List Record :=
  ((Scan.start container).collect image.archive).1.filterMap Except.toOption

/-- The header and the code of a record. -/
def recordBytes (container : Container) (image : Image) (record : Record) : Bytes :=
  ((image.region container.entry).drop record.offset.value.toNat).take
    record.header.length.toNat

section Yield

variable {container : Container} {image : Image} {capsules : List Capsule}

theorem filterMap_map_ok (listed : List Record) :
    (listed.map (Except.ok : Record → Item)).filterMap Except.toOption = listed := by
  rw [List.filterMap_map]
  exact List.filterMap_some

theorem recordsAt_prefix_yielded (mounted : image.Mounts container.index container.entry)
    (spelled : Spells (image.region container.entry) container.firstPlace capsules) :
    recordsAt container.firstPlace capsules <+: yielded container image := by
  have shows := shows_region mounted.holds mounted.addressable
  show _ <+: ((walkAt container container.firstPlace).collect image.archive).1.filterMap _
  rw [collect_of_spells shows spelled, List.filterMap_append, filterMap_map_ok]
  exact List.prefix_append _ _

/-- The records that are yielded are those of the capsules before the end of
the list, or before the place where it breaks off. -/
theorem exists_yielded (mounted : image.Mounts container.index container.entry) :
    ∃ capsules, Spells (image.region container.entry) container.firstPlace capsules ∧
      yielded container image = recordsAt container.firstPlace capsules := by
  have shows := shows_region mounted.holds mounted.addressable
  obtain ⟨capsules, spelled, stopped⟩ :=
    exists_spelled (image.region container.entry) container.firstPlace
  refine ⟨capsules, spelled, ?_⟩
  show ((walkAt container container.firstPlace).collect image.archive).1.filterMap _ = _
  rw [collect_of_spells shows spelled, List.filterMap_append, filterMap_map_ok]
  rcases stopped with ended | ⟨length, broken⟩
  · rw [collect_of_ends shows ended]
    exact List.append_nil _
  · rw [collect_of_breaks shows broken]
    exact List.append_nil _

theorem recordBytes_of_spells {earlier later : List Capsule} {capsule : Capsule}
    (mounted : image.Mounts container.index container.entry)
    (spelled : Spells (image.region container.entry) container.firstPlace
      (earlier ++ capsule :: later)) :
    recordBytes container image
        ⟨⟨(container.firstPlace + totalSize earlier).toUInt16⟩, capsule.header⟩ =
      capsule.encode := by
  have shows := shows_region mounted.holds mounted.addressable
  obtain ⟨earlierSpelled, rest⟩ := spells_append.mp spelled
  have standing := (spells_cons.mp rest).1
  unfold recordBytes
  rw [toNat_toUInt16 (shows.finish_lt earlierSpelled), standing.drop_eq, ← List.append_assoc]
  exact List.take_left' capsule.length_encode

end Yield

section Appending

variable {δ : Type} [Device δ] [Fallible δ]

/-- Whatever is refused, an append leaves every capsule of the container where
it is. A lookup that could not read all of it stops the append. -/
theorem spells_append_fallible {container : Container} {device : δ} {capsules : List Capsule}
    (header : Header) (code : Bytes)
    (mounted : (Backed.image device).Mounts container.index container.entry)
    (spelled : Spells ((Backed.image device).region container.entry) container.firstPlace
      capsules) :
    Spells ((Backed.image ((append container header code).result device).2).region
      container.entry) container.firstPlace capsules := by
  refine spells_of_leaves (leaves_append_of_find header code mounted ?_) spelled
  intro slot found
  exact find_of_veils (Fallible.veils device) found

theorem spells_of_runs {store last : Store δ} {capsules : List Capsule}
    (ran : Runs Action.Appends store last)
    (mounted : (Backed.image store.device).Mounts store.container.index store.container.entry)
    (spelled : Spells ((Backed.image store.device).region store.container.entry)
      store.container.firstPlace capsules) :
    (Backed.image last.device).Mounts store.container.index store.container.entry ∧
      Spells ((Backed.image last.device).region store.container.entry)
        store.container.firstPlace capsules := by
  refine (ran.keeps (fun container image => container = store.container ∧
    image.Mounts store.container.index store.container.entry ∧
      Spells (image.region store.container.entry) store.container.firstPlace capsules) ?_
    ⟨rfl, mounted, spelled⟩).2
  rintro before action appends ⟨located, mounted, spelled⟩
  rcases action.result_cases before with same | ⟨header, code, appended⟩ | ⟨erases, -⟩
  · rw [same]
    exact ⟨located, mounted, spelled⟩
  · rw [appended, located]
    exact ⟨rfl, keeps_append (Flash.Image.keeps_mounts _ _).behind _ header code _ mounted,
      spells_append_fallible header code mounted spelled⟩
  · exact absurd appends erases

/-- Appends only add. On a device that may refuse any call, over any run of
appends with any arguments, the records that the image yields at first are
still the first that it yields in the end, and their headers and codes are
unchanged. -/
theorem appends_retain_records (device : δ) (config : Config) (store last : Store δ)
    (valid : (Backed.image device).validate = .ok ())
    (addressable : (Backed.image device).memoryEnd < UInt32.size)
    (opened : (start device config).outcome = .ok store)
    (ran : Runs Action.Appends store last) :
    yielded store.container (Backed.image store.device) <+:
        yielded store.container (Backed.image last.device) ∧
      ∀ record ∈ yielded store.container (Backed.image store.device),
        recordBytes store.container (Backed.image last.device) record =
          recordBytes store.container (Backed.image store.device) record := by
  obtain ⟨located, storeEq⟩ := eq_of_start opened
  have mounted : (Backed.image store.device).Mounts store.container.index
      store.container.entry := by
    rw [storeEq]
    exact mounts_of_locate valid addressable
      (container_locate_of_veils (Fallible.veils device) located)
  obtain ⟨capsules, spelled, yieldedEq⟩ := exists_yielded mounted
  obtain ⟨lastMounted, lastSpelled⟩ := spells_of_runs ran mounted spelled
  rw [yieldedEq]
  refine ⟨recordsAt_prefix_yielded lastMounted lastSpelled, ?_⟩
  intro record member
  obtain ⟨before, behind, listed⟩ := List.append_of_mem member
  obtain ⟨earlier, capsule, later, capsulesEq, -, recordEq⟩ := exists_split_of_recordsAt listed
  rw [capsulesEq] at spelled lastSpelled
  rw [recordEq, recordBytes_of_spells lastMounted lastSpelled,
    recordBytes_of_spells mounted spelled]

end Appending

/-- A capsule of eight bytes, and free space for another. -/
def roomyImage : Image :=
  ⟨0x300, #[8, 0, 1, 2, 3, 4, 0x08, 0x95, 0, 0, 0, 0, 0, 0, 0, 0, 0, 0],
    [⟨⟨0x300⟩, 18, .capsuleBuffer⟩], none⟩

def roomyContainer : Container := ⟨0, ⟨⟨0x300⟩, 18, .capsuleBuffer⟩, by decide⟩

/-- `roomyImage` behind a device that cannot read the end of its list. -/
def blindDevice : FaultyDevice := .start roomyImage { FaultPlan.none with reads := [0x308] }

/-- `roomyImage` behind a device that refuses the second write and the first
close. -/
def brittleDevice : FaultyDevice :=
  .start roomyImage { FaultPlan.none with writes := [2], closes := [1] }

/-- The store on `roomyImage` behind a device. -/
def roomyStore (device : FaultyDevice) : Store FaultyDevice :=
  ⟨device, .standard, roomyContainer, .initial⟩

/-- The append of another capsule of eight bytes. -/
def secondAppend : Action := .perform (.appendCode ⟨5, 6, 7, 8⟩ [1, 2])

theorem appends_retain_records_behind_refusals :
    ∃ last, Runs Action.Appends (roomyStore blindDevice) last ∧
      yielded roomyContainer (Backed.image blindDevice) = [⟨⟨0⟩, ⟨8, ⟨1, 2, 3, 4⟩⟩⟩] ∧
      yielded roomyContainer (Backed.image last.device) =
        [⟨⟨0⟩, ⟨8, ⟨1, 2, 3, 4⟩⟩⟩, ⟨⟨8⟩, ⟨8, ⟨5, 6, 7, 8⟩⟩⟩] ∧
      recordBytes roomyContainer (Backed.image last.device) ⟨⟨0⟩, ⟨8, ⟨1, 2, 3, 4⟩⟩⟩ =
        recordBytes roomyContainer (Backed.image blindDevice) ⟨⟨0⟩, ⟨8, ⟨1, 2, 3, 4⟩⟩⟩ := by
  have unwritten : (secondAppend.result (roomyStore blindDevice)).2 = roomyStore blindDevice := by
    decide +kernel
  have ran : Runs Action.Appends (roomyStore blindDevice)
      (secondAppend.result (roomyStore brittleDevice)).2 := by
    have appends : secondAppend.Appends := rfl
    refine .act secondAppend appends ?_
    rw [unwritten]
    exact .drift brittleDevice rfl (.act secondAppend appends (.done _))
  have before : yielded roomyContainer (Backed.image blindDevice) =
      [⟨⟨0⟩, ⟨8, ⟨1, 2, 3, 4⟩⟩⟩] := by decide +kernel
  have after : yielded roomyContainer
      (Backed.image (secondAppend.result (roomyStore brittleDevice)).2.device) =
        [⟨⟨0⟩, ⟨8, ⟨1, 2, 3, 4⟩⟩⟩, ⟨⟨8⟩, ⟨8, ⟨5, 6, 7, 8⟩⟩⟩] := by decide +kernel
  have retained := (appends_retain_records blindDevice .standard (roomyStore blindDevice) _
    (by decide) (by decide) rfl ran).2 ⟨⟨0⟩, ⟨8, ⟨1, 2, 3, 4⟩⟩⟩
  refine ⟨_, ran, before, after, retained ?_⟩
  show _ ∈ yielded roomyContainer (Backed.image blindDevice)
  rw [before]
  exact List.mem_singleton.mpr rfl

end CodeCapsules.Store
