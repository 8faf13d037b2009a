import CodeCapsules.Proofs.Commands
import CodeCapsules.Proofs.Confinement
import CodeCapsules.Proofs.Framing
import CodeCapsules.Proofs.Layout
import Mathlib.Algebra.Group.Nat.Defs

/-!
Contract: commands that are run one after the other act as calls of one store.

Every command loads the image and opens its container anew. Beside the disk, a
history keeps the store as the last `init` made it, and the calls of the commands
that succeeded since, which are never saved or loaded.

Owns:
- `Mirrors`, a file that holds the image of a store in memory;
- what a loaded store and the store in memory have in common;
- `History`, and what each request adds to it.

Main statement: after every request the file holds the image of the store in
memory, and a request that fails or only reads leaves the file.

Does not own: other writers of the file.
-/

namespace CodeCapsules

open CommandLine (Command InitChoices Request)
open Flash (Image)

/-! ## Images and configurations -/

theorem Utf8.pieces_cons_of_ascii {byte : UInt8} (ascii : byte < 0x80) (rest : Bytes) :
    pieces (byte :: rest) = some (Char.ofNat byte.toNat) :: pieces rest := by
  rw [pieces]
  simp [front, ascii]

/-- A frame is no configuration: a zero stands where a key should end. -/
theorem ToolConfig.ofToml?_of_frame (image : Image) {text : String}
    (decoded : Utf8.decode? image.toFrame = some text) : ToolConfig.ofToml? text = none := by
  obtain ⟨rest, frameEq⟩ : ∃ rest, image.toFrame = 0x43 :: 0x41 :: 0x50 :: 0x53 :: 0 :: rest :=
    ⟨_, rfl⟩
  unfold Utf8.decode? at decoded
  rw [frameEq, Utf8.pieces_cons_of_ascii (by decide), Utf8.pieces_cons_of_ascii (by decide),
    Utf8.pieces_cons_of_ascii (by decide), Utf8.pieces_cons_of_ascii (by decide),
    Utf8.pieces_cons_of_ascii (by decide)] at decoded
  obtain ⟨characters, spelled, rfl⟩ := Option.map_eq_some_iff.mp decoded
  simp only [List.mapM_cons, id, Option.bind_eq_bind, Option.bind_some, Option.pure_def,
    Option.bind_eq_some_iff, Option.some.injEq] at spelled
  obtain ⟨_, ⟨_, ⟨_, ⟨_, ⟨others, -, rfl⟩, rfl⟩, rfl⟩, rfl⟩, rfl⟩ := spelled
  unfold ofToml? Toml.parse?
  rw [String.toList_ofList]
  rfl

section Configuration

variable {disk : PathMap} {path : String} {tool : ToolConfig}

theorem loadConfig_run (config : Option String) (disk : PathMap) :
    ∃ outcome, (loadConfig config).run disk = (⟨outcome, [], []⟩, disk) := by
  cases config with
  | none => exact ⟨_, rfl⟩
  | some path =>
      unfold loadConfig
      rw [Script.run_contentsOf_bind]
      split
      · exact ⟨_, rfl⟩
      · split
        · exact ⟨_, rfl⟩
        · split
          · exact ⟨_, rfl⟩
          · exact ⟨_, rfl⟩

theorem loadConfig_eq_ok :
    ((loadConfig (some path)).run disk).1.outcome = .ok tool ↔
      ∃ bytes text, disk.contents path = some bytes ∧ Utf8.decode? bytes = some text ∧
        ToolConfig.ofToml? text = some tool := by
  unfold loadConfig
  rw [Script.run_contentsOf_bind]
  constructor
  · intro loaded
    split at loaded
    · contradiction
    · rename_i bytes read
      split at loaded
      · contradiction
      · rename_i text decoded
        split at loaded
        · contradiction
        · rename_i config parsed
          rw [Except.ok.inj loaded] at parsed
          exact ⟨bytes, text, PathMap.read_eq_ok.mp read, decoded, parsed⟩
  · rintro ⟨bytes, text, present, decoded, parsed⟩
    simp only [PathMap.read_eq_ok.mpr present, decoded, parsed]
    rfl

/-- The configuration cannot be loaded, or is this one. -/
def Configures (config : Option String) (tool : ToolConfig) (disk : PathMap) : Prop :=
  ∀ other, ((loadConfig config).run disk).1.outcome = .ok other → other = tool

/-- Saving an image makes no other configuration, even in its own file. -/
theorem Configures.put {config : Option String} (configures : Configures config tool disk)
    (path : String) (image : Image) : Configures config tool (disk.put path image.toFrame) := by
  intro other loaded
  cases config with
  | none => exact configures other loaded
  | some source =>
      obtain ⟨bytes, text, present, decoded, read⟩ := loadConfig_eq_ok.mp loaded
      by_cases same : source = path
      · rw [same, PathMap.contents_put_self] at present
        rw [← Option.some.inj present] at decoded
        rw [ToolConfig.ofToml?_of_frame image decoded] at read
        contradiction
      · rw [PathMap.contents_put_of_ne same] at present
        exact configures other (loadConfig_eq_ok.mpr ⟨bytes, text, present, decoded, read⟩)

/-- What the command of a request knows under a configuration. -/
def CommandLine.Request.under (request : Request) (coloured : Bool) (tool : ToolConfig) : Setting :=
  ⟨request.image, request.format, coloured, tool⟩

/-- A request succeeds if its command does under the configuration it loads. -/
theorem CommandLine.Request.script_succeeds {request : Request} {coloured : Bool}
    {lines : List String} {after : PathMap}
    (succeeds : (request.script coloured).Succeeds disk () lines after)
    (configures : Configures request.config tool disk) :
    ((request.under coloured tool).script request.command).Succeeds disk () lines after := by
  obtain ⟨other, _, _, rest, ⟨loaded, printed, left⟩, commanded, rfl⟩ :=
    Script.succeeds_bind.mp succeeds
  obtain rfl := configures other loaded
  obtain ⟨outcome, runs⟩ := loadConfig_run request.config disk
  rw [runs] at printed left
  obtain rfl := printed
  obtain rfl := left
  exact commanded

end Configuration

namespace Store

open Flash.Image (Confined)

/-- The file holds the image of the store, from which a command finds the same
container again. -/
structure Mirrors (type : FileType) (contents : Option Bytes) (store : Store Image) : Prop where
  saved : contents = some store.device.toFrame
  valid : store.device.validate = .ok ()
  fits : Flash.Payload.Fits store.device
  located : (Container.locate store.device.archive type).outcome = .ok store.container
  room : eraseMark.length ≤ store.container.capacity
  represented : ∃ log, Represents store.container store.device.memoryEnd store log

section Mirrors

variable {type : FileType} {contents : Option Bytes} {store : Store Image}

theorem Mirrors.idle (mirrors : Mirrors type contents store) : store.device.cursor = none := by
  obtain ⟨log, represents⟩ := mirrors.represented
  exact represents.idle

theorem Mirrors.mounted (mirrors : Mirrors type contents store) :
    store.device.Mounts store.container.index store.container.entry := by
  obtain ⟨log, represents⟩ := mirrors.represented
  exact represents.mounted

/-- What is read from the file is the image of the store. -/
theorem Mirrors.ofFrame (mirrors : Mirrors type contents store) {frame : Bytes} {image : Image}
    (present : contents = some frame) (decoded : Image.ofFrame frame = .ok image) :
    image = store.device := by
  have frameEq : store.device.toFrame = frame :=
    Option.some.inj (mirrors.saved.symm.trans present)
  have read := Flash.Image.ofFrame_toFrame mirrors.fits mirrors.valid
  rw [frameEq, decoded] at read
  rw [Except.ok.inj read, ← mirrors.idle]

/-- A change inside the container keeps the image in order, and the container
where it is. -/
theorem mirrors_of_confined {changed : Store Image} (valid : store.device.validate = .ok ())
    (fits : Flash.Payload.Fits store.device)
    (located : (Container.locate store.device.archive type).outcome = .ok store.container)
    (room : eraseMark.length ≤ store.container.capacity)
    (containerEq : changed.container = store.container)
    (confined : Confined store.container.entry store.device changed.device)
    (represented : ∃ log, Represents store.container store.device.memoryEnd changed log) :
    Mirrors type (some changed.device.toFrame) changed := by
  refine ⟨rfl, ?_, ?_, ?_, ?_, ?_⟩
  · apply Flash.Image.validateFrom_eq_ok.mpr
    intro entry member
    rw [confined.files] at member
    have holds := Flash.Image.validateFrom_eq_ok.mp valid entry member
    unfold Flash.Image.Holds Flash.Image.memoryEnd at holds ⊢
    rw [confined.origin, confined.size]
    exact holds
  · unfold Flash.Payload.Fits
    rw [confined.size, confined.files]
    exact fits
  · rw [locate_congr confined.files, containerEq]
    exact located
  · rw [containerEq]
    exact room
  · obtain ⟨log, represents⟩ := represented
    rw [containerEq, represents.bounded]
    exact ⟨log, represents⟩

theorem Mirrors.perform (mirrors : Mirrors type contents store) (call : Call) :
    Mirrors type (some (call.perform.result store).2.device.toFrame)
      (call.perform.result store).2 := by
  obtain ⟨log, represents⟩ := mirrors.represented
  obtain ⟨-, after⟩ := represents.step mirrors.room call
  obtain ⟨-, containerEq, confined⟩ := (Action.perform call).confined store mirrors.mounted.reaches
  exact mirrors_of_confined mirrors.valid mirrors.fits mirrors.located mirrors.room containerEq
    confined ⟨_, after⟩

/-- An erase that succeeds had room for its mark. -/
theorem room_of_clear {cleared : Store Image}
    (mounted : store.device.Mounts store.container.index store.container.entry)
    (succeeded : clear.result store = (.ok (), cleared)) :
    eraseMark.length ≤ store.container.capacity := by
  by_contra overruns
  obtain ⟨-, ⟨cause, refused⟩, -⟩ := Flash.WriteSession.run_image_of_overrun store.device
    eraseMark mounted (by decide) (Nat.not_le.mp overruns)
  have failed : ((erase store.container).result store.device).1 = Outcome.refuse (.flash cause) := by
    rw [result_erase, refused]
    rfl
  have cleared := clear_eq_error.mpr failed
  rw [succeeded] at cleared
  contradiction

end Mirrors

end Store

open Store (Mirrors)

namespace Setting

variable {setting : Setting} {choices : InitChoices} {store : Store Image}

/-- A new image is in order. -/
theorem mirrors_freshStore (made : setting.freshStore choices = .ok store)
    (counted : setting.config.layout.files.length + 1 < 2 ^ 64)
    (addressable : ∀ built, (setting.layoutOf choices).build = .ok built →
      built.memoryEnd < UInt32.size) :
    Mirrors setting.config.store.containerType (some store.device.toFrame) store := by
  obtain ⟨image, building, opening⟩ := Outcome.bind_eq_ok.mp made
  obtain ⟨opened, starting, clearing⟩ := Outcome.bind_eq_ok.mp opening
  obtain ⟨done, emptying, returned⟩ := Outcome.bind_eq_ok.mp clearing
  obtain rfl := Except.ok.inj returned
  have built := Outcome.mapCause_eq_ok.mp building
  have cleared := Outcome.mapCause_eq_ok.mp emptying
  have below := addressable image built
  obtain ⟨ahead, reserved, lays⟩ := Flash.Layout.exists_lays built below
  obtain ⟨located, openedEq⟩ := Store.eq_of_start (Outcome.mapCause_eq_ok.mp starting)
  have mounted := Store.mounts_of_locate lays.validate below located
  have deviceEq : opened.device = image := by rw [openedEq]
  rw [← deviceEq] at mounted
  have room := Store.room_of_clear mounted (Prod.ext cleared rfl)
  have rests : Store.Rests opened.container opened.device.memoryEnd opened :=
    ⟨rfl, rfl, mounted, by rw [deviceEq]; exact lays.idle⟩
  have harmless := Store.harmless_clear opened mounted.reaches
  apply Store.mirrors_of_confined _ _ _ room harmless.located harmless.confined
    ⟨_, (rests.clear room).2⟩
  · rw [deviceEq]
    exact lays.validate
  · rw [deviceEq]
    have sizeEq : UInt32.size = 4294967296 := rfl
    unfold Flash.Image.memoryEnd at below
    refine ⟨by omega, ?_⟩
    rw [lays.files, List.length_append, lays.length_ahead]
    exact counted
  · rw [deviceEq]
    exact located

/-- A command loads the image and the container of the store in memory. -/
theorem eq_of_loads {disk : PathMap} {loaded : Store Image}
    (mirrors : Mirrors setting.config.store.containerType (disk.contents setting.image) store)
    (loads : setting.Loads disk loaded) :
    loaded.device = store.device ∧ loaded.container = store.container := by
  obtain ⟨frame, image, present, decoded, opened⟩ := loads
  obtain rfl := mirrors.ofFrame present decoded
  obtain ⟨located, loadedEq⟩ := Store.eq_of_start opened
  refine ⟨by rw [loadedEq], ?_⟩
  exact Except.ok.inj (located.symm.trans mirrors.located)

end Setting

/-! ## Calls behind commands -/

namespace Store

variable {left right : Store Image}

theorem result_onDevice {α : Type} (operation : Container → Operation Image Error α)
    (store : Store Image) :
    (onDevice operation).result store =
      (((operation store.container).result store.device).1,
        { store with device := ((operation store.container).result store.device).2 }) := rfl

/-- What is done on the device depends on the device and the container only. -/
theorem onDevice_congr {α : Type} (operation : Container → Operation Image Error α)
    (deviceEq : left.device = right.device) (containerEq : left.container = right.container) :
    ((onDevice operation).result left).1 = ((onDevice operation).result right).1 ∧
      ((onDevice operation).result left).2.device =
        ((onDevice operation).result right).2.device := by
  rw [result_onDevice, result_onDevice, deviceEq, containerEq]
  exact ⟨rfl, rfl⟩

theorem clear_congr (deviceEq : left.device = right.device)
    (containerEq : left.container = right.container) :
    (clear.result left).1 = (clear.result right).1 ∧
      (clear.result left).2.device = (clear.result right).2.device := by
  rw [result_clear, result_clear, deviceEq, containerEq]
  generalize (erase right.container).result right.device = erased
  obtain ⟨outcome, device⟩ := erased
  cases outcome with
  | ok done => exact ⟨rfl, rfl⟩
  | error stop => exact ⟨rfl, rfl⟩

/-- Code that was there before leaves the device as it was. -/
theorem device_of_unstored {hash : Hash} {code : Bytes} {store stored : Store Image}
    {appended : Appended} (added : (addCode hash code).result store = (.ok appended, stored))
    (unstored : appended.stored = false) : stored.device = store.device := by
  unfold addCode at added
  rw [result_onDevice, result_appendCode] at added
  obtain ⟨answer, storedEq⟩ := Prod.mk.inj added
  rw [← storedEq]
  cases coded : Header.ofCode hash code with
  | error cause => rfl
  | ok header =>
      rw [coded] at answer
      rcases result_append_cases store.container header code store.device with
        ⟨same, -⟩ | ⟨offset, -, -, -, -, result⟩
      · exact same
      · simp only [result] at answer
        generalize Outcome.mapCause _ _ = written at answer
        cases written with
        | error stop => contradiction
        | ok done =>
            rw [← Except.ok.inj answer] at unstored
            contradiction

end Store

namespace CommandLine.Command

/-- The call of the store behind a command. -/
def call? (disk : PathMap) : Command → Option Store.Call
  | .append path hashText => do
    let code ← disk.contents path
    let hash ← (Setting.hashFor hashText code).toOption
    return .appendCode hash code
  | .erase => some .erase
  | _ => none

end CommandLine.Command

namespace Setting

variable {setting : Setting} {store : Store Image} {disk after : PathMap} {lines : List String}

/-- An append that succeeds answers as the store in memory, and leaves its image
in the file. -/
theorem append_mirrors {path : String} {hashText : Option String}
    (mirrors : Mirrors setting.config.store.containerType (disk.contents setting.image) store)
    (succeeds : (setting.append path hashText).Succeeds disk () lines after) :
    ∃ code hash appended,
      (Command.append path hashText).call? disk = some (.appendCode hash code) ∧
      ((Store.addCode hash code).result store).1 = .ok appended ∧
      lines = setting.appendedLines hash code appended ∧
      (appended.stored = false → after = disk) ∧
      after.contents setting.image =
        some ((Store.addCode hash code).result store).2.device.toFrame := by
  obtain ⟨code, hash, loaded, appended, stored, present, hashed, loads, added, linesEq, afterEq⟩ :=
    append_succeeds succeeds
  obtain ⟨deviceEq, containerEq⟩ := eq_of_loads mirrors loads
  obtain ⟨answerEq, storedEq⟩ := Store.onDevice_congr
    (fun container => Store.appendCode container hash code) deviceEq containerEq
  change ((Store.addCode hash code).result loaded).1 = ((Store.addCode hash code).result store).1
    at answerEq
  change ((Store.addCode hash code).result loaded).2.device =
    ((Store.addCode hash code).result store).2.device at storedEq
  rw [added] at answerEq storedEq
  refine ⟨code, hash, appended, ?_, answerEq.symm, linesEq, ?_, ?_⟩
  · simp [Command.call?, present, hashed, Except.toOption]
  · intro unstored
    rw [afterEq, if_neg (by simp [unstored])]
  · rw [← storedEq, afterEq]
    split
    · exact PathMap.contents_put_self
    · rename_i unstored
      rw [Store.device_of_unstored added (by simpa using unstored), deviceEq]
      exact mirrors.saved

theorem erase_mirrors
    (mirrors : Mirrors setting.config.store.containerType (disk.contents setting.image) store)
    (succeeds : setting.erase.Succeeds disk () lines after) :
    (Store.clear.result store).1 = .ok () ∧
      after.contents setting.image = some (Store.clear.result store).2.device.toFrame := by
  obtain ⟨loaded, cleared, loads, emptied, afterEq⟩ := erase_succeeds succeeds
  obtain ⟨deviceEq, containerEq⟩ := eq_of_loads mirrors loads
  obtain ⟨answerEq, clearedEq⟩ := Store.clear_congr deviceEq containerEq
  rw [emptied] at answerEq clearedEq
  refine ⟨answerEq.symm, ?_⟩
  rw [afterEq, ← clearedEq]
  exact PathMap.contents_put_self

end Setting

/-! ## Histories -/

/-- The request names this image and this configuration, and an image that it
makes ends below the last address. -/
structure CommandLine.Request.Suits (request : Request) (image : String)
    (config : Option String) (coloured : Bool) (tool : ToolConfig) : Prop where
  image : request.image = image
  config : request.config = config
  addressable : ∀ choices built, request.command = .init choices →
    ((request.under coloured tool).layoutOf choices).build = .ok built →
      built.memoryEnd < UInt32.size

/-- A disk, and beside it a store that is never saved: as the last successful
`init` made it, with the calls of the commands that succeeded since. -/
structure History where
  disk : PathMap
  made : Option (Store Image)
  calls : List Store.Call

namespace History

variable {image : String} {config : Option String} {coloured : Bool} {tool : ToolConfig}

/-- No request yet. -/
def start (disk : PathMap) : History := ⟨disk, none, []⟩

/-- The history after one more request. -/
def next (coloured : Bool) (tool : ToolConfig) (history : History) (request : Request) : History :=
  let (transcript, disk) := (request.script coloured).run history.disk
  match transcript.outcome with
  | .error _ => { history with disk }
  | .ok () =>
    match request.command with
    | .init choices => ⟨disk, ((request.under coloured tool).freshStore choices).toOption, []⟩
    | command =>
      { history with disk, calls := history.calls ++ (command.call? history.disk).toList }

section Steps

variable {history : History} {request : Request} {lines : List String} {after : PathMap}

theorem next_of_failed {stop : Stop Failure}
    (failed : ((request.script coloured).run history.disk).1.outcome = .error stop) :
    history.next coloured tool request = history := by
  have left := request.script_careful coloured history.disk stop failed
  unfold next
  simp only [failed, left]

theorem next_of_init {choices : InitChoices}
    (succeeds : (request.script coloured).Succeeds history.disk () lines after)
    (isInit : request.command = .init choices) :
    history.next coloured tool request =
      ⟨after, ((request.under coloured tool).freshStore choices).toOption, []⟩ := by
  unfold next
  simp only [succeeds.1, succeeds.2.2, isInit]

theorem next_of_other (succeeds : (request.script coloured).Succeeds history.disk () lines after)
    (other : ∀ choices, request.command ≠ .init choices) :
    history.next coloured tool request =
      { history with
        disk := after
        calls := history.calls ++ (request.command.call? history.disk).toList } := by
  unfold next
  simp only [succeeds.1, succeeds.2.2]

end Steps

/-- The file holds the image of the store, and the configuration is the one of
the history wherever it can be loaded. -/
structure Sound (image : String) (config : Option String) (tool : ToolConfig)
    (history : History) : Prop where
  configures : Configures config tool history.disk
  mirrors : ∃ made, history.made = some made ∧
    Mirrors tool.store.containerType (history.disk.contents image)
      (Store.after history.calls made)

section Sound

variable {history : History} {request : Request} {lines : List String} {after : PathMap}

theorem configures_after (configures : Configures config tool history.disk)
    (succeeds : ((request.under coloured tool).script request.command).Succeeds history.disk ()
      lines after) : Configures config tool after := by
  rcases Setting.script_saves succeeds with rfl | ⟨saved, rfl⟩
  · exact configures
  · exact configures.put _ saved

/-- An `init` that succeeds starts a store whose image is in the file. -/
theorem sound_of_init {choices : InitChoices} (configures : Configures config tool history.disk)
    (suits : request.Suits image config coloured tool)
    (counted : tool.layout.files.length + 1 < 2 ^ 64) (isInit : request.command = .init choices)
    (succeeds : (request.script coloured).Succeeds history.disk () lines after) :
    (history.next coloured tool request).Sound image config tool := by
  have commanded := request.script_succeeds succeeds (by rw [suits.config]; exact configures)
  rw [next_of_init succeeds isInit]
  refine ⟨configures_after configures commanded, ?_⟩
  rw [isInit] at commanded
  obtain ⟨store, made, rfl⟩ := Setting.init_succeeds commanded
  have mirrors := Setting.mirrors_freshStore made counted fun built => suits.addressable _ built isInit
  refine ⟨store, by rw [made]; rfl, ?_⟩
  have present : (history.disk.put (request.under coloured tool).image
      store.device.toFrame).contents image = some store.device.toFrame := by
    rw [← suits.image]
    exact PathMap.contents_put_self
  rw [present]
  exact mirrors

/-- A successful command other than `init` does to the file what its call does to
the image of the store. -/
theorem Sound.mirrors_after (sound : history.Sound image config tool)
    (imageEq : request.image = image) (other : ∀ choices, request.command ≠ .init choices)
    (commanded : ((request.under coloured tool).script request.command).Succeeds history.disk ()
      lines after) :
    ∃ made, history.made = some made ∧
      Mirrors tool.store.containerType (after.contents image)
        (Store.after (history.calls ++ (request.command.call? history.disk).toList) made) := by
  obtain ⟨made, madeEq, mirrors⟩ := sound.mirrors
  refine ⟨made, madeEq, ?_⟩
  rw [Store.after_append]
  subst imageEq
  cases command : request.command with
  | init choices => exact absurd command (other choices)
  | append path hashText =>
      rw [command] at commanded
      obtain ⟨code, hash, appended, called, -, -, -, afterEq⟩ :=
        Setting.append_mirrors mirrors commanded
      have same : ((Store.Call.appendCode hash code).perform.result
          (Store.after history.calls made)).2 =
            ((Store.addCode hash code).result (Store.after history.calls made)).2 := by
        simp only [Store.Call.perform, Operation.result_map]
      rw [← same] at afterEq
      rw [called, show after.contents request.image = _ from afterEq]
      exact mirrors.perform (.appendCode hash code)
  | erase =>
      rw [command] at commanded
      obtain ⟨-, afterEq⟩ := Setting.erase_mirrors mirrors commanded
      have same : (Store.Call.erase.perform.result (Store.after history.calls made)).2 =
          (Store.clear.result (Store.after history.calls made)).2 := by
        simp only [Store.Call.perform, Operation.result_map]
      rw [← same] at afterEq
      rw [show after.contents request.image = _ from afterEq]
      exact mirrors.perform .erase
  | _ =>
      rw [← commanded.2.2, (Setting.silent_of_isReading (by rw [command]; rfl)).run_disk]
      exact mirrors

/-- Every request keeps the file and the store in memory together. -/
theorem Sound.next (sound : history.Sound image config tool)
    (suits : request.Suits image config coloured tool)
    (counted : tool.layout.files.length + 1 < 2 ^ 64) :
    (history.next coloured tool request).Sound image config tool := by
  cases outcome : ((request.script coloured).run history.disk).1.outcome with
  | error stop =>
      rw [next_of_failed outcome]
      exact sound
  | ok done =>
      have succeeds : (request.script coloured).Succeeds history.disk () _ _ :=
        ⟨outcome, rfl, rfl⟩
      by_cases isInit : ∃ choices, request.command = .init choices
      · obtain ⟨choices, isInit⟩ := isInit
        exact sound_of_init sound.configures suits counted isInit succeeds
      · have other : ∀ choices, request.command ≠ .init choices :=
          fun choices same => isInit ⟨choices, same⟩
        have commanded := request.script_succeeds succeeds
          (by rw [suits.config]; exact sound.configures)
        rw [next_of_other succeeds other]
        exact ⟨configures_after sound.configures commanded,
          sound.mirrors_after suits.image other commanded⟩

theorem Sound.foldl_next {requests : List Request} (sound : history.Sound image config tool)
    (suits : ∀ request ∈ requests, request.Suits image config coloured tool)
    (counted : tool.layout.files.length + 1 < 2 ^ 64) :
    (requests.foldl (History.next coloured tool) history).Sound image config tool := by
  induction requests generalizing history with
  | nil => exact sound
  | cons request rest inductionHypothesis =>
      have headSuits := suits request List.mem_cons_self
      exact inductionHypothesis (sound.next headSuits counted)
        fun other member => suits other (List.mem_cons_of_mem _ member)

end Sound

/-- Requests for one image under one configuration, the first of them an `init`
that succeeds, act as calls of one store that is never saved or loaded. Before
each request the file holds the image of that store. A request that fails or only
reads leaves the disk, and an append or an erase that succeeds answers as the
store does. -/
theorem requests_act_as_one_store (image : String) (config : Option String) (coloured : Bool)
    (tool : ToolConfig) (disk : PathMap) (first request : Request) (choices : InitChoices)
    (earlier : List Request)
    (configured : ((loadConfig config).run disk).1.outcome = .ok tool)
    (counted : tool.layout.files.length + 1 < 2 ^ 64)
    (suits : ∀ each ∈ first :: request :: earlier, each.Suits image config coloured tool)
    (isInit : first.command = .init choices)
    (succeeded : ((first.script coloured).run disk).1.outcome = .ok ()) :
    let history := (first :: earlier).foldl (History.next coloured tool) (.start disk)
    let (transcript, after) := (request.script coloured).run history.disk
    ∃ made, history.made = some made ∧
      let store := Store.after history.calls made
      history.disk.contents image = some store.device.toFrame ∧
        (∀ stop, transcript.outcome = .error stop → after = history.disk) ∧
        (request.command.isReading = true → after = history.disk) ∧
        (∀ path hashText, request.command = .append path hashText →
          transcript.outcome = .ok () →
            ∃ code hash appended,
              request.command.call? history.disk = some (.appendCode hash code) ∧
              ((Store.addCode hash code).result store).1 = .ok appended ∧
              transcript.lines = (request.under coloured tool).appendedLines hash code appended ∧
              (appended.stored = false → after = history.disk)) ∧
        (request.command = .erase → transcript.outcome = .ok () →
          (Store.clear.result store).1 = .ok ()) := by
  intro history
  have configures : Configures config tool (History.start disk).disk := by
    intro other loaded
    exact Except.ok.inj (loaded.symm.trans configured)
  have initial : ((History.start disk).next coloured tool first).Sound image config tool :=
    sound_of_init configures (suits first (by simp)) counted isInit ⟨succeeded, rfl, rfl⟩
  have sound : history.Sound image config tool :=
    initial.foldl_next (fun each member => suits each (by simp [member])) counted
  have requestSuits := suits request (by simp)
  have commanded (done : ((request.script coloured).run history.disk).1.outcome = .ok ()) :=
    request.script_succeeds ⟨done, rfl, rfl⟩ (by rw [requestSuits.config]; exact sound.configures)
  obtain ⟨made, madeEq, mirrors⟩ := sound.mirrors
  refine ⟨made, madeEq, mirrors.saved, ?_, ?_, ?_, ?_⟩
  · intro stop failed
    exact request.script_careful coloured history.disk stop failed
  · intro reading
    have silent : (request.script coloured).Silent :=
      (silent_loadConfig request.config).bind fun _ => Setting.silent_of_isReading reading
    exact silent.run_disk history.disk
  · intro path hashText isAppend done
    have succeeds := commanded done
    rw [isAppend] at succeeds
    rw [← requestSuits.image] at mirrors
    obtain ⟨code, hash, appended, called, answered, printed, kept, -⟩ :=
      Setting.append_mirrors mirrors succeeds
    exact ⟨code, hash, appended, by rw [isAppend]; exact called, answered, printed, kept⟩
  · intro isErase done
    have succeeds := commanded done
    rw [isErase] at succeeds
    rw [← requestSuits.image] at mirrors
    exact (Setting.erase_mirrors mirrors succeeds).1

/-- A disk with the code of a return. -/
def codeDisk : PathMap := ⟨fun path => if path = "code.bin" then some [0x08, 0x95] else none⟩

def codeRequest (command : Command) : Request := ⟨command, "capsules.img", none, false, .text⟩

def smallInit : Request := codeRequest (.init ⟨some 16, none, false, false⟩)

def codeAppend : Request := codeRequest (.append "code.bin" (some "01020304"))

theorem refused_init_leaves_the_one_store :
    let history := [smallInit, codeAppend].foldl (next false .standard) (.start codeDisk)
    history.calls.length = 1 ∧
      ∃ made, history.made = some made ∧
        history.disk.contents "capsules.img" =
          some (Store.after history.calls made).device.toFrame ∧
        ((smallInit.script false).run history.disk).1.outcome =
          .error (.refused (.imageExists "capsules.img")) ∧
        ((smallInit.script false).run history.disk).2 = history.disk := by
  have refused : ((smallInit.script false).run
      ([smallInit, codeAppend].foldl (next false .standard) (.start codeDisk)).disk).1.outcome =
        .error (.refused (.imageExists "capsules.img")) := by decide +kernel
  have initSuits : smallInit.Suits "capsules.img" none false .standard := by
    refine ⟨rfl, rfl, ?_⟩
    rintro choices built ⟨⟩ made
    obtain rfl := Except.ok.inj made
    decide
  have appendSuits : codeAppend.Suits "capsules.img" none false .standard :=
    ⟨rfl, rfl, nofun⟩
  obtain ⟨made, madeEq, saved, failing, -⟩ :=
    requests_act_as_one_store "capsules.img" none false .standard codeDisk smallInit smallInit
      ⟨some 16, none, false, false⟩ [codeAppend] rfl (by decide)
      (by simp [initSuits, appendSuits]) rfl rfl
  exact ⟨by decide +kernel, made, madeEq, saved, refused, failing _ refused⟩

end History

end CodeCapsules
