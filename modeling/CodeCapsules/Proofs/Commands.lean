import CodeCapsules.Proofs.Script
import CodeCapsules.Script.Command

/-!
Contract: what each command does to the file of its image.

Owns:
- loading and saving, as parts of a run on a map from paths to contents;
- the commands that write nothing;
- what a successful `init`, `append` or `erase` has done, and what it prints;
- the failure of any command, which comes before it writes.

Main statement: a command that fails leaves the disk as it was.
-/

namespace CodeCapsules

open CommandLine (Command InitChoices Request)
open Flash (Image)

/-- Whether the command only reads the image. -/
def CommandLine.Command.isReading : Command → Bool
  | .list => true
  | .find _ _ => true
  | .address _ => true
  | .invoke _ _ => true
  | _ => false

namespace Setting

variable (setting : Setting)

/-! ## Parts of commands -/

/-- What an answer prints. -/
def answerLines (members : List (String × Json)) (texts : List String) : List String :=
  match setting.format with
  | .json => [(Json.object members).pretty]
  | .text => texts

section Parts

variable {setting} {σ : Type} [Disk σ] {disk after : σ} {lines : List String}

theorem succeeds_answer {members : List (String × Json)} {texts : List String} {done : Unit} :
    (setting.answer members texts).Succeeds disk done lines after ↔
      lines = setting.answerLines members texts ∧ after = disk := by
  unfold answer answerLines
  cases setting.format with
  | json => exact Script.succeeds_say
  | text => exact Script.succeeds_forM_say texts

theorem silent_answer (members : List (String × Json)) (texts : List String) :
    (setting.answer members texts).Silent := by
  unfold answer
  cases setting.format with
  | json => trivial
  | text => exact Script.silent_forM _ _ fun _ => trivial

theorem silent_loadImage : setting.loadImage.Silent := by
  unfold loadImage
  apply (Script.silent_contentsOf _).bind
  intro answer
  cases answer with
  | error cause => trivial
  | ok frame =>
      apply (Script.silent_ofOutcome _ _).bind
      intro image
      trivial

theorem silent_loadStore : setting.loadStore.Silent := by
  apply silent_loadImage.bind
  intro image
  exact Script.silent_ofLogged _ _

end Parts

section OnPathMap

variable {setting} {disk after : PathMap} {lines : List String}

/-- The store on the image in the file. -/
def Loads (setting : Setting) (disk : PathMap) (store : Store Image) : Prop :=
  ∃ frame image, disk.contents setting.image = some frame ∧ Image.ofFrame frame = .ok image ∧
    (Store.start image setting.config.store).outcome = .ok store

theorem loadStore_succeeds {store : Store Image}
    (succeeds : setting.loadStore.Succeeds disk store lines after) :
    setting.Loads disk store ∧ lines = [] ∧ after = disk := by
  obtain ⟨image, _, last, _, loading, opening, rfl⟩ := Script.succeeds_bind.mp succeeds
  obtain ⟨opened, rfl, rfl⟩ := Script.succeeds_ofLogged.mp opening
  obtain ⟨answer, _, disk, _, reading, decoding, rfl⟩ := Script.succeeds_bind.mp loading
  obtain ⟨rfl, rfl, rfl⟩ := Script.succeeds_contentsOf.mp reading
  cases read : Disk.read disk setting.image with
  | error cause =>
      rw [read] at decoding
      exact absurd decoding Script.not_succeeds_fail
  | ok frame =>
      rw [read] at decoding
      obtain ⟨image, _, disk, _, checking, noting, rfl⟩ := Script.succeeds_bind.mp decoding
      obtain ⟨decoded, rfl, rfl⟩ := Script.succeeds_ofExcept.mp checking
      obtain ⟨_, _, disk, _, noted, returned, rfl⟩ := Script.succeeds_bind.mp noting
      obtain ⟨rfl, rfl⟩ := Script.succeeds_note.mp noted
      obtain ⟨rfl, rfl, rfl⟩ := Script.succeeds_pure.mp returned
      exact ⟨⟨frame, _, PathMap.read_eq_ok.mp read, decoded, opened⟩, rfl, rfl⟩

/-- Saving an image puts its frame under the path of the image. -/
theorem succeeds_saveImage (image : Image) :
    (setting.saveImage image).Succeeds disk () [] (disk.put setting.image image.toFrame) :=
  ⟨rfl, rfl, rfl⟩

end OnPathMap

/-! ## Commands that write nothing -/

section Reading

variable {setting}

theorem silent_list : setting.list.Silent := by
  unfold list
  apply silent_loadStore.bind
  intro store
  apply (Script.silent_ofLogged _ _).bind
  intro records
  apply (Script.silent_ofLogged _ _).bind
  intro used
  apply (Script.silent_ofLogged _ _).bind
  intro free
  have silentJson (record : Store.Record) : (recordJson store record).Silent :=
    (Script.silent_ofOutcome _ _).bind fun _ => trivial
  have silentRecord (record : Store.Record) : (setting.sayRecord store record).Silent :=
    (Script.silent_ofOutcome _ _).bind fun _ => Script.silent_say _
  split
  · apply (Script.silent_mapM _ _ silentJson).bind
    intro entries
    exact Script.silent_say _
  · simp only
    split
    · apply (Script.silent_say _).bind
      intro _
      exact (Script.silent_forM _ _ silentRecord).bind fun _ => Script.silent_say _
    · exact (Script.silent_forM _ _ silentRecord).bind fun _ => Script.silent_say _

theorem silent_find (length : UInt16) (hashText : String) :
    (setting.find length hashText).Silent := by
  unfold find
  apply (Script.silent_ofOutcome _ _).bind
  intro hash
  apply silent_loadStore.bind
  intro store
  apply (Script.silent_ofLogged _ _).bind
  intro lookup
  exact silent_answer _ _

theorem silent_address (offset : Offset) : (setting.address offset).Silent := by
  unfold address
  apply silent_loadStore.bind
  intro store
  apply (Script.silent_ofOutcome _ _).bind
  intro code
  exact silent_answer _ _

theorem silent_invoke (offset : Offset) (size : Option Nat) :
    (setting.invoke offset size).Silent := by
  unfold invoke
  apply silent_loadStore.bind
  intro store
  extract_lets calling
  have silentCalling : ∀ width, (calling width).Silent := by
    intro width
    apply (Script.silent_ofOperation _ _ _).bind
    intro called
    exact silent_answer _ _
  cases size with
  | none => exact (Script.silent_pure _).bind silentCalling
  | some size => exact (Script.silent_ofOutcome _ _).bind silentCalling

theorem silent_of_isReading {command : Command} (reading : command.isReading = true) :
    (setting.script command).Silent := by
  cases command with
  | init choices => contradiction
  | list => exact silent_list
  | find length hash => exact silent_find length hash
  | append path hash => contradiction
  | address offset => exact silent_address ⟨offset⟩
  | invoke offset width => exact silent_invoke ⟨offset⟩ width
  | erase => contradiction

end Reading

/-! ## Commands that write -/

section Writing

variable {setting} {disk after : PathMap} {lines : List String}

/-- The store of a new image, which has just been erased. -/
def freshStore (setting : Setting) (choices : InitChoices) : Outcome Failure (Store Image) := do
  let image ← (setting.layoutOf choices).build.mapCause .layout
  let store ← (Store.start image setting.config.store).outcome.mapCause .store
  let cleared := Store.clear.result store
  cleared.1.mapCause .store
  return cleared.2

/-- The hash under which code is stored. -/
def hashFor (hashText : Option String) (code : Bytes) : Except ValueError Hash :=
  match hashText with
  | some text => Hash.ofHex text
  | none => .ok (Hash.ofCode code)

/-- What an append tells programs. -/
def appendedMembers (hash : Hash) (appended : Store.Appended) : List (String × Json) :=
  [("hash", .text hash.toHex), ("offset", .number appended.offset.value.toNat),
    ("stored", .bool appended.stored)]

/-- What an append tells people. -/
def appendedText (setting : Setting) (hash : Hash) (code : Bytes) (appended : Store.Appended) :
    String :=
  let offset := setting.offsetText appended.offset
  if appended.stored then
    s!"{setting.tick} Appended {setting.hashText hash} ({code.length} code bytes) at {offset}"
  else s!"{setting.hashText hash} already stored at {offset}"

/-- What an append prints. -/
def appendedLines (setting : Setting) (hash : Hash) (code : Bytes) (appended : Store.Appended) :
    List String :=
  setting.answerLines (appendedMembers hash appended) [setting.appendedText hash code appended]

/-- What an append does once it has its code and its hash. -/
def storeCode (setting : Setting) (code : Bytes) (hash : Hash) : Script Unit := do
  let store ← setting.loadStore
  let (appended, store) ← Script.ofOperation .store (Store.addCode hash code) store
  if appended.stored then setting.saveImage store.device
  setting.answer (appendedMembers hash appended) [setting.appendedText hash code appended]

theorem append_eq (path : String) (hashText : Option String) :
    setting.append path hashText = Script.contentsOf path >>= fun answer =>
      match answer with
      | .error cause => Script.fail (.codeUnreadable path cause)
      | .ok code => Script.ofExcept .value (hashFor hashText code) >>= setting.storeCode code := by
  unfold append
  congr 1
  funext answer
  cases answer with
  | error cause => rfl
  | ok code =>
      cases hashText with
      | none => rfl
      | some text => rfl

/-- The end of a command that saves its image. -/
theorem saving_succeeds (image : Image) (members : List (String × Json)) (texts : List String) :
    (setting.saveImage image >>= fun _ => setting.answer members texts).Succeeds disk ()
      (setting.answerLines members texts) (disk.put setting.image image.toFrame) :=
  Script.succeeds_bind.mpr ⟨(), [], _, _, succeeds_saveImage image,
    succeeds_answer.mpr ⟨rfl, rfl⟩, rfl⟩

theorem init_succeeds {choices : InitChoices}
    (succeeds : (setting.init choices).Succeeds disk () lines after) :
    ∃ store, setting.freshStore choices = .ok store ∧
      after = disk.put setting.image store.device.toFrame := by
  obtain ⟨present, _, disk, _, probing, making, rfl⟩ := Script.succeeds_bind.mp succeeds
  obtain ⟨-, rfl, rfl⟩ := Script.succeeds_isPresent.mp probing
  simp only at making
  split at making
  · obtain ⟨_, _, _, _, failing, -, -⟩ := Script.succeeds_bind.mp making
    exact absurd failing Script.not_succeeds_fail
  obtain ⟨image, _, disk, _, building, opening, rfl⟩ := Script.succeeds_bind.mp making
  obtain ⟨built, rfl, rfl⟩ := Script.succeeds_ofOutcome.mp building
  obtain ⟨store, _, disk, _, starting, clearing, rfl⟩ := Script.succeeds_bind.mp opening
  obtain ⟨opened, rfl, rfl⟩ := Script.succeeds_ofLogged.mp starting
  obtain ⟨⟨done, cleared⟩, _, disk, _, operating, saving, rfl⟩ :=
    Script.succeeds_bind.mp clearing
  obtain ⟨operated, rfl, rfl⟩ := Script.succeeds_ofOperation.mp operating
  refine ⟨cleared, ?_, (saving.unique (saving_succeeds _ _ _)).2.2⟩
  unfold freshStore
  rw [built, Outcome.mapCause_ok, Outcome.bind_ok, opened, Outcome.mapCause_ok, Outcome.bind_ok]
  simp only [operated]
  rfl

theorem storeCode_succeeds {code : Bytes} {hash : Hash}
    (succeeds : (setting.storeCode code hash).Succeeds disk () lines after) :
    ∃ store appended stored, setting.Loads disk store ∧
      (Store.addCode hash code).result store = (.ok appended, stored) ∧
      lines = setting.appendedLines hash code appended ∧
      after = if appended.stored then disk.put setting.image stored.device.toFrame else disk := by
  obtain ⟨store, _, disk, _, loading, adding, rfl⟩ := Script.succeeds_bind.mp succeeds
  obtain ⟨loaded, rfl, rfl⟩ := loadStore_succeeds loading
  obtain ⟨⟨appended, stored⟩, _, disk, _, operating, saving, rfl⟩ := Script.succeeds_bind.mp adding
  obtain ⟨operated, rfl, rfl⟩ := Script.succeeds_ofOperation.mp operating
  refine ⟨store, appended, stored, loaded, operated, ?_⟩
  simp only at saving
  split at saving
  · rename_i isStored
    obtain ⟨-, linesEq, afterEq⟩ := saving.unique (saving_succeeds _ _ _)
    rw [if_pos isStored]
    exact ⟨linesEq, afterEq⟩
  · rename_i isThere
    obtain ⟨linesEq, afterEq⟩ := succeeds_answer.mp saving
    rw [if_neg isThere]
    exact ⟨linesEq, afterEq⟩

/-- An append that succeeds saves the image if the code was not stored before,
and leaves the disk otherwise. -/
theorem append_succeeds {path : String} {hashText : Option String}
    (succeeds : (setting.append path hashText).Succeeds disk () lines after) :
    ∃ code hash store appended stored, disk.contents path = some code ∧
      hashFor hashText code = .ok hash ∧ setting.Loads disk store ∧
      (Store.addCode hash code).result store = (.ok appended, stored) ∧
      lines = setting.appendedLines hash code appended ∧
      after = if appended.stored then disk.put setting.image stored.device.toFrame else disk := by
  rw [append_eq] at succeeds
  obtain ⟨answer, _, disk, _, reading, hashing, rfl⟩ := Script.succeeds_bind.mp succeeds
  obtain ⟨rfl, rfl, rfl⟩ := Script.succeeds_contentsOf.mp reading
  cases read : Disk.read disk path with
  | error cause =>
      rw [read] at hashing
      exact absurd hashing Script.not_succeeds_fail
  | ok code =>
      rw [read] at hashing
      obtain ⟨hash, _, disk, _, checking, storing, rfl⟩ := Script.succeeds_bind.mp hashing
      obtain ⟨hashed, rfl, rfl⟩ := Script.succeeds_ofExcept.mp checking
      obtain ⟨store, appended, stored, loaded, added, linesEq, afterEq⟩ :=
        storeCode_succeeds storing
      exact ⟨code, hash, store, appended, stored, PathMap.read_eq_ok.mp read, hashed, loaded,
        added, linesEq, afterEq⟩

theorem erase_succeeds (succeeds : setting.erase.Succeeds disk () lines after) :
    ∃ store cleared, setting.Loads disk store ∧ Store.clear.result store = (.ok (), cleared) ∧
      after = disk.put setting.image cleared.device.toFrame := by
  obtain ⟨store, _, disk, _, loading, clearing, rfl⟩ := Script.succeeds_bind.mp succeeds
  obtain ⟨loaded, rfl, rfl⟩ := loadStore_succeeds loading
  obtain ⟨⟨done, cleared⟩, _, disk, _, operating, saving, rfl⟩ :=
    Script.succeeds_bind.mp clearing
  obtain ⟨operated, rfl, rfl⟩ := Script.succeeds_ofOperation.mp operating
  exact ⟨store, cleared, loaded, operated, (saving.unique (saving_succeeds _ _ _)).2.2⟩

/-- A command that succeeds writes nothing but an image to its file. -/
theorem script_saves {command : Command}
    (succeeds : (setting.script command).Succeeds disk () lines after) :
    after = disk ∨ ∃ image : Image, after = disk.put setting.image image.toFrame := by
  cases command with
  | init choices =>
      obtain ⟨store, -, afterEq⟩ := init_succeeds succeeds
      exact .inr ⟨_, afterEq⟩
  | append path hashText =>
      obtain ⟨_, _, _, appended, stored, -, -, -, -, -, afterEq⟩ := append_succeeds succeeds
      split at afterEq
      · exact .inr ⟨_, afterEq⟩
      · exact .inl afterEq
  | erase =>
      obtain ⟨store, cleared, -, -, afterEq⟩ := erase_succeeds succeeds
      exact .inr ⟨_, afterEq⟩
  | _ =>
      left
      rw [← succeeds.2.2]
      exact (silent_of_isReading rfl).run_disk disk

/-! ## Failures -/

theorem saving_careful (image : Image) (members : List (String × Json)) (texts : List String) :
    (setting.saveImage image >>= fun _ => setting.answer members texts).Careful disk :=
  (saving_succeeds image members texts).careful

theorem init_careful (choices : InitChoices) : (setting.init choices).Careful disk := by
  unfold init
  apply (Script.silent_isPresent _).bind_careful
  intro present
  simp only
  split
  · apply Script.Silent.careful
    trivial
  apply (Script.silent_ofOutcome _ _).bind_careful
  intro image
  apply (Script.silent_ofLogged _ _).bind_careful
  intro store
  apply (Script.silent_ofOperation _ _ _).bind_careful
  intro cleared
  exact saving_careful _ _ _

theorem append_careful (path : String) (hashText : Option String) :
    (setting.append path hashText).Careful disk := by
  rw [append_eq]
  apply (Script.silent_contentsOf _).bind_careful
  intro answer
  cases answer with
  | error cause =>
      apply Script.Silent.careful
      trivial
  | ok code =>
      apply (Script.silent_ofOutcome _ _).bind_careful
      intro hash
      apply silent_loadStore.bind_careful
      intro store
      apply (Script.silent_ofOperation _ _ _).bind_careful
      intro made
      simp only
      split
      · exact saving_careful _ _ _
      · exact (silent_answer _ _).careful disk

theorem erase_careful : setting.erase.Careful disk := by
  unfold erase
  apply silent_loadStore.bind_careful
  intro store
  apply (Script.silent_ofOperation _ _ _).bind_careful
  intro cleared
  exact saving_careful _ _ _

/-- A command that fails leaves the disk as it was. -/
theorem script_careful (command : Command) : (setting.script command).Careful disk := by
  cases command with
  | init choices => exact init_careful choices
  | append code hash => exact append_careful code hash
  | erase => exact erase_careful
  | _ => exact (silent_of_isReading rfl).careful disk

end Writing

end Setting

/-! ## Requests -/

theorem silent_loadConfig (config : Option String) : (loadConfig config).Silent := by
  cases config with
  | none => trivial
  | some path =>
      apply (Script.silent_contentsOf path).bind
      intro answer
      cases answer with
      | error cause => trivial
      | ok bytes =>
          simp only
          split
          · trivial
          · split
            · trivial
            · trivial

/-- A request that fails leaves the disk as it was. -/
theorem CommandLine.Request.script_careful (request : Request) (coloured : Bool)
    (disk : PathMap) : (request.script coloured).Careful disk := by
  apply (silent_loadConfig request.config).bind_careful
  intro config
  exact Setting.script_careful request.command

end CodeCapsules
