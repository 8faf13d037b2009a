import CodeCapsules.Proofs.Commands
import CodeCapsules.Proofs.Confinement
import CodeCapsules.Proofs.Layout

/-!
Contract: which file of a new image the store takes for its container.

A layout places the container behind all other files. The store takes the first
file that has the type tag, wherever it lies.

Owns:
- `IsFirst`, the file that a search by type tag finds;
- `OwnTag`, layouts in which no other file has the tag of the container;
- the bytes of the files beside a container that is erased.

Main statement: the store opens the file that the layout reserved exactly if no
other file has its tag. Then an `init` leaves the other files as they are built.

Does not own: files that were placed by other means than a layout.
-/

namespace CodeCapsules

open Flash (Entry Image)

/-! ## The first file of a type -/

namespace Flash.Image

variable {image : Image} {index : Nat} {entry : Entry}

/-- Of the files from `start` on, this is the first that has the type. -/
structure IsFirst (image : Image) (type : FileType) (start index : Nat) : Prop where
  behind : start ≤ index
  typed : ∃ entry, image.file index = .ok entry ∧ entry.type = type
  earlier : ∀ other, start ≤ other → other < index →
    ∀ entry, image.file other = .ok entry → entry.type ≠ type

theorem isFirst_self {type : FileType} (filed : image.file index = .ok entry)
    (typed : entry.type = type) {other : Nat} : image.IsFirst type index other ↔ other = index := by
  constructor
  · intro first
    by_contra apart
    have behind := first.behind
    exact first.earlier index (Nat.le_refl _) (by omega) entry filed typed
  · rintro rfl
    exact ⟨Nat.le_refl _, ⟨entry, filed, typed⟩, by omega⟩

theorem isFirst_succ {type : FileType} (filed : image.file index = .ok entry)
    (typed : entry.type ≠ type) {other : Nat} :
    image.IsFirst type index other ↔ image.IsFirst type (index + 1) other := by
  constructor
  · intro first
    have apart : other ≠ index := by
      rintro rfl
      obtain ⟨found, foundFiled, foundTyped⟩ := first.typed
      rw [filed] at foundFiled
      exact typed (Except.ok.inj foundFiled ▸ foundTyped)
    have behind := first.behind
    exact ⟨by omega, first.typed, fun place startLe => first.earlier place (by omega)⟩
  · intro first
    have behind := first.behind
    refine ⟨by omega, first.typed, fun place startLe before present presentFiled => ?_⟩
    by_cases same : place = index
    · rw [same, filed] at presentFiled
      exact Except.ok.inj presentFiled ▸ typed
    · exact first.earlier place (by omega) before present presentFiled

end Flash.Image

namespace Store

variable {image : Image} {type : FileType} {index : Nat}

theorem locateFrom_eq_ok {start count : Nat} (whole : start + count = image.files.length) :
    (locateFrom image.archive type start count).outcome = .ok index ↔
      image.IsFirst type start index := by
  induction count generalizing start with
  | zero =>
      constructor
      · intro found
        contradiction
      · rintro ⟨behind, ⟨entry, filed, -⟩, -⟩
        obtain ⟨inside, -⟩ := List.getElem?_eq_some_iff.mp (Flash.Image.file_eq_ok.mp filed)
        omega
  | succ count inductionHypothesis =>
      have filed : image.file start = .ok image.files[start] :=
        Flash.Image.file_eq_ok.mpr (List.getElem?_eq_getElem (by omega))
      have archived : image.archive.file start = .ok image.files[start] := filed
      unfold locateFrom
      simp only [archived]
      split
      · rename_i typed
        rw [Flash.Image.isFirst_self filed typed]
        exact ⟨fun found => (Except.ok.inj found).symm, fun same => same ▸ rfl⟩
      · rename_i typed
        rw [Flash.Image.isFirst_succ filed typed]
        exact inductionHypothesis (by omega)

/-- A search finds the first file of the type. -/
theorem locate_eq_ok :
    (locate image.archive type).outcome = .ok index ↔ image.IsFirst type 0 index :=
  locateFrom_eq_ok (Nat.zero_add _)

end Store

/-! ## The files of a layout -/

namespace Flash.Layout

/-- No file ahead of the container has its type tag. -/
def OwnTag (layout : Layout) : Prop := ∀ spec ∈ layout.files, spec.type ≠ layout.type

instance (layout : Layout) : Decidable layout.OwnTag :=
  inferInstanceAs (Decidable (∀ spec ∈ layout.files, spec.type ≠ layout.type))

namespace Lays

variable {layout : Layout} {image : Image} {ahead : List Entry} {reserved entry : Entry}
  {index : Nat}

theorem file_reserved (lays : layout.Lays image ahead reserved) :
    image.file layout.files.length = .ok reserved := by
  rw [Image.file_eq_ok, lays.files, ← lays.length_ahead]
  simp

theorem file_ahead (lays : layout.Lays image ahead reserved)
    (before : index < layout.files.length) :
    image.file index = .ok entry ↔ ahead[index]? = some entry := by
  rw [← lays.length_ahead] at before
  rw [Image.file_eq_ok, lays.files, List.getElem?_append_left before]

theorem ownTag_iff (lays : layout.Lays image ahead reserved) :
    layout.OwnTag ↔ ∀ entry ∈ ahead, entry.type ≠ layout.type := by
  have tags : (∀ tag ∈ layout.files.map FileSpec.type, tag ≠ layout.type) ↔
      ∀ tag ∈ ahead.map Entry.type, tag ≠ layout.type := by rw [lays.types]
  rw [List.forall_mem_map, List.forall_mem_map] at tags
  exact tags

/-- The reserved file is the first of its type exactly if it is the only one. -/
theorem isFirst_iff (lays : layout.Lays image ahead reserved) :
    image.IsFirst layout.type 0 layout.files.length ↔ layout.OwnTag := by
  rw [lays.ownTag_iff]
  constructor
  · intro first entry member
    obtain ⟨index, inside, rfl⟩ := List.getElem_of_mem member
    have before : index < layout.files.length := lays.length_ahead ▸ inside
    exact first.earlier index (Nat.zero_le _) before _
      ((lays.file_ahead before).mpr (List.getElem?_eq_getElem inside))
  · intro apart
    refine ⟨Nat.zero_le _, ⟨reserved, lays.file_reserved, lays.type⟩, ?_⟩
    intro other _ before entry filed
    exact apart entry (List.mem_of_getElem? ((lays.file_ahead before).mp filed))

theorem lt_of_isFirst (lays : layout.Lays image ahead reserved) (clash : ¬ layout.OwnTag)
    (first : image.IsFirst layout.type 0 index) : index < layout.files.length := by
  obtain ⟨entry, filed, -⟩ := first.typed
  obtain ⟨inside, -⟩ := List.getElem?_eq_some_iff.mp (Image.file_eq_ok.mp filed)
  rw [lays.files, List.length_append, lays.length_ahead, List.length_singleton] at inside
  have apart : index ≠ layout.files.length := by
    rintro rfl
    exact clash (lays.isFirst_iff.mp first)
  omega

end Lays

end Flash.Layout

/-! ## Opening and erasing -/

namespace Flash.Image

/-- The bytes of a file stay if they lie apart from those that may change. -/
theorem Confined.fileBytes_eq {before after : Image} {changed entry : Entry} {index : Nat}
    (confined : Confined changed before after) (filed : before.file index = .ok entry)
    (apart : entry.base.value.toNat + entry.size.toNat ≤ changed.base.value.toNat ∨
      changed.base.value.toNat + changed.size.toNat ≤ entry.base.value.toNat) :
    after.fileBytes index = before.fileBytes index := by
  have filedAfter : after.file index = .ok entry := by
    rw [file_eq_ok, confined.files]
    exact file_eq_ok.mp filed
  unfold fileBytes
  rw [filed, filedAfter, Outcome.ofExcept_ok, Outcome.bind_ok, Outcome.bind_ok,
    confined.indexOf_eq]
  cases found : before.indexOf entry.base with
  | error cause => rfl
  | ok start =>
      obtain ⟨originLe, -, startEq⟩ := indexOf_eq_ok found
      have same : after.memory.extract start (start + entry.size.toNat) =
          before.memory.extract start (start + entry.size.toNat) := by
        apply Array.ext_getElem?
        intro place
        rw [Array.getElem?_extract, Array.getElem?_extract, confined.size]
        split
        · apply confined.outside
          omega
        · rfl
      simp only [Outcome.ofExcept_ok, Outcome.bind_ok, confined.size, same]

end Flash.Image

namespace Store

open Flash (Layout)
open Flash.Image (Confined)

variable {layout : Layout} {image : Image} {config : Config} {ahead : List Entry}
  {reserved : Entry} {store : Store Image}

/-- The reserved file as a container. -/
def Container.ofLays (lays : layout.Lays image ahead reserved) : Container :=
  ⟨layout.files.length, reserved, by rw [lays.size]; exact lays.most⟩

theorem start_of_ownTag (lays : layout.Lays image ahead reserved)
    (typed : config.containerType = layout.type) (own : layout.OwnTag) :
    (start image config).outcome = .ok ⟨image, config, .ofLays lays, .initial⟩ := by
  apply start_of_locate
  rw [container_locate_eq_ok, typed]
  exact ⟨locate_eq_ok.mpr (lays.isFirst_iff.mpr own), lays.file_reserved⟩

theorem isFirst_of_start (opened : (start image config).outcome = .ok store) :
    image.IsFirst config.containerType 0 store.container.index := by
  obtain ⟨located, -⟩ := eq_of_start opened
  exact locate_eq_ok.mp (container_locate_eq_ok.mp located).1

/-- Whatever file of a layout is opened, an erase stays inside it. -/
theorem confined_clear (lays : layout.Lays image ahead reserved)
    (addressable : image.memoryEnd < UInt32.size)
    (opened : (start image config).outcome = .ok store) :
    Confined store.container.entry image (clear.result store).2.device := by
  obtain ⟨located, storeEq⟩ := eq_of_start opened
  have deviceEq : store.device = image := by rw [storeEq]
  have mounted := mounts_of_locate lays.validate addressable located
  rw [← deviceEq] at mounted
  have harmless := harmless_clear store mounted.reaches
  rw [← deviceEq]
  exact harmless.confined

theorem clear_of_ownTag (config : Config) (lays : layout.Lays image ahead reserved)
    (addressable : image.memoryEnd < UInt32.size) :
    (clear.result (⟨image, config, .ofLays lays, .initial⟩ : Store Image)).1 = .ok () := by
  have finish := lays.finish
  have mounted : image.Mounts layout.files.length reserved :=
    ⟨lays.file_reserved, ⟨lays.behind, Nat.le_of_eq finish⟩, addressable⟩
  have rests : Rests (.ofLays lays) image.memoryEnd
      (⟨image, config, .ofLays lays, .initial⟩ : Store Image) :=
    ⟨rfl, rfl, mounted, lays.idle⟩
  have room : eraseMark.length ≤ (Container.ofLays lays).capacity := by
    show _ ≤ reserved.size.toNat
    rw [lays.size]
    exact lays.least
  exact (rests.clear room).1

end Store

namespace Setting

variable {setting : Setting} {choices : CommandLine.InitChoices} {disk : PathMap}

/-- An `init` that may write saves the image of its store. -/
theorem succeeds_init {image : Image} {store cleared : Store Image}
    (allowed : disk.contents setting.image = none ∨ choices.force = true)
    (built : (setting.layoutOf choices).build = .ok image)
    (opened : (Store.start image setting.config.store).outcome = .ok store)
    (emptied : Store.clear.result store = (.ok (), cleared)) :
    ∃ lines, (setting.init choices).Succeeds disk () lines
      (disk.put setting.image cleared.device.toFrame) := by
  have proceeds : ¬ (Disk.contains disk setting.image && !choices.force) = true := by
    show ¬ ((disk.contents setting.image).isSome && !choices.force) = true
    rcases allowed with absent | forced
    · simp [absent]
    · simp [forced]
  have clearing : (Script.ofOperation Failure.store Store.clear store).Succeeds disk
      ((), cleared) [] disk := Script.succeeds_ofOperation.mpr ⟨emptied, rfl, rfl⟩
  apply Script.Succeeds.exists_bind (Script.succeeds_isPresent.mpr ⟨rfl, rfl, rfl⟩)
  simp only
  rw [if_neg proceeds]
  apply Script.Succeeds.exists_bind (Script.succeeds_ofOutcome.mpr ⟨built, rfl, rfl⟩)
  apply Script.Succeeds.exists_bind (Script.succeeds_ofLogged.mpr ⟨opened, rfl, rfl⟩)
  apply clearing.exists_bind
  exact ⟨_, saving_succeeds _ _ _⟩

end Setting

namespace Store

open Flash.Image (Confined)

/-- A store opens the region that the layout reserved exactly if no other file has
its tag. An `init` then succeeds, and the image that it saves differs from the one
that was built in the reserved region only. Where another file has the tag, a
store opens one of the files ahead, and an erase of that file leaves the reserved
region. -/
theorem reserved_region_opens_iff_own_tag (layout : Flash.Layout) (image : Image)
    (config : Config) (built : layout.build = .ok image)
    (addressable : image.memoryEnd < UInt32.size) (typed : config.containerType = layout.type) :
    ((∃ store, (start image config).outcome = .ok store ∧
        store.container.index = layout.files.length ∧
        store.container.capacity = layout.capacity.toNat ∧
        (store.container.base.value.toNat % 2 = 1 ↔ layout.oddBase = true)) ↔
      layout.OwnTag) ∧
    (layout.OwnTag → ∀ (setting : Setting) (choices : CommandLine.InitChoices) (disk : PathMap),
      setting.layoutOf choices = layout →
      (disk.contents setting.image = none ∨ choices.force = true) →
        ∃ entry emptied lines, image.file layout.files.length = .ok entry ∧
          (setting.init choices).Succeeds disk () lines
            (disk.put setting.image emptied.toFrame) ∧
          Confined entry image emptied ∧
          ∀ index < layout.files.length, emptied.fileBytes index = image.fileBytes index) ∧
    (¬ layout.OwnTag → ∀ store, (start image config).outcome = .ok store →
      store.container.index < layout.files.length ∧
        Confined store.container.entry image (clear.result store).2.device ∧
        (clear.result store).2.device.fileBytes layout.files.length =
          image.fileBytes layout.files.length) := by
  obtain ⟨ahead, reserved, lays⟩ := Flash.Layout.exists_lays built addressable
  refine ⟨⟨?_, ?_⟩, ?_, ?_⟩
  · rintro ⟨store, opened, indexEq, -, -⟩
    have first := isFirst_of_start opened
    rw [typed, indexEq] at first
    exact lays.isFirst_iff.mp first
  · intro own
    exact ⟨_, start_of_ownTag lays typed own, rfl, congrArg UInt32.toNat lays.size, lays.odd⟩
  · rintro own setting choices disk rfl allowed
    have opened := start_of_ownTag lays (show setting.config.store.containerType = _ from rfl) own
    have emptied := clear_of_ownTag setting.config.store lays addressable
    have confined := confined_clear lays addressable opened
    obtain ⟨lines, succeeds⟩ :=
      Setting.succeeds_init allowed built opened (Prod.ext emptied rfl)
    refine ⟨reserved, _, lines, lays.file_reserved, succeeds, confined, ?_⟩
    intro index before
    have inside : index < ahead.length := lays.length_ahead ▸ before
    have filed := (lays.file_ahead before).mpr (List.getElem?_eq_getElem inside)
    exact confined.fileBytes_eq filed (.inl (lays.ahead _ (List.getElem_mem inside)).2)
  · intro clash store opened
    have first := isFirst_of_start opened
    rw [typed] at first
    have before := lays.lt_of_isFirst clash first
    have confined := confined_clear lays addressable opened
    have filed : image.file store.container.index = .ok store.container.entry :=
      file_of_locate (eq_of_start opened).1
    have member := List.mem_of_getElem? ((lays.file_ahead before).mp filed)
    exact ⟨before, confined,
      confined.fileBytes_eq lays.file_reserved (.inr (lays.ahead _ member).2)⟩

/-- A file of eight bytes ahead of a container of sixteen. -/
def shieldedLayout (type : FileType) : Flash.Layout :=
  ⟨768, [⟨type, 8, 0xAA⟩], 16, .capsuleBuffer, false⟩

def shieldedImage (type : FileType) : Image :=
  ⟨768, Array.replicate 8 0xAA ++ Array.replicate 16 0,
    [⟨⟨768⟩, 8, type⟩, ⟨⟨776⟩, 16, .capsuleBuffer⟩], none⟩

def shieldedSetting : Setting :=
  ⟨"capsules.img", .text, false, ⟨.standard, shieldedLayout ⟨1⟩⟩⟩

theorem shielded_file_survives_init :
    (∃ store, (start (shieldedImage ⟨1⟩) .standard).outcome = .ok store ∧
        store.container.index = 1 ∧ store.container.capacity = 16) ∧
      ∃ (emptied : Image) (lines : List String),
        (shieldedSetting.init ⟨none, none, false, false⟩).Succeeds ⟨fun _ => none⟩ () lines
          (PathMap.put ⟨fun _ => none⟩ "capsules.img" emptied.toFrame) ∧
        emptied.fileBytes 0 = .ok (List.replicate 8 0xAA) := by
  have own : (shieldedLayout ⟨1⟩).OwnTag := by decide
  obtain ⟨opens, keeps, -⟩ := reserved_region_opens_iff_own_tag (shieldedLayout ⟨1⟩)
    (shieldedImage ⟨1⟩) .standard rfl (by decide) rfl
  obtain ⟨store, opened, indexEq, capacityEq, -⟩ := opens.mpr own
  obtain ⟨_, emptied, lines, -, succeeds, -, kept⟩ :=
    keeps own shieldedSetting ⟨none, none, false, false⟩ ⟨fun _ => none⟩ rfl (.inl rfl)
  exact ⟨⟨store, opened, indexEq, capacityEq⟩, emptied, lines, succeeds, kept 0 (by decide)⟩

/-- A file that has the tag of the container is opened in its place, and erased. -/
theorem shielded_file_of_same_tag_is_erased :
    (shieldedLayout .capsuleBuffer).build = .ok (shieldedImage .capsuleBuffer) ∧
      (shieldedImage .capsuleBuffer).memoryEnd < UInt32.size ∧
      Config.standard.containerType = (shieldedLayout .capsuleBuffer).type ∧
      ∃ store, (start (shieldedImage .capsuleBuffer) .standard).outcome = .ok store ∧
        store.container.index = 0 ∧ store.container.capacity = 8 ∧
        (clear.result store).1 = .ok () ∧
        (clear.result store).2.device.fileBytes 0 =
          .ok [0, 0, 0, 0xAA, 0xAA, 0xAA, 0xAA, 0xAA] :=
  ⟨rfl, by decide, rfl, _, rfl, rfl, rfl, by decide +kernel, by decide +kernel⟩

end Store

end CodeCapsules
