import CodeCapsules.Proofs.Fallible
import CodeCapsules.Proofs.Halting

/-!
Contract: a store touches nothing but the bytes of its container, and never
halts, if the end of the container is an address.

Owns:
- `Reaches`, a file of an image whose end is an address;
- `Confined`, images that differ in the bytes of one file only;
- the commands and sessions of a device, for any offset and any byte strings;
- one action on a store, and runs of actions.

Main statement: on a device that may refuse any call, every action of every run
is answered, the image outside the container stays as it is, and the container
is found where the store has it.
-/

namespace CodeCapsules.Flash

namespace Image

/-- The file `index` of the image, which lies inside memory, and whose end is
an address. Memory may go on behind the last address. -/
structure Reaches (image : Image) (index : Nat) (entry : Entry) : Prop where
  filed : image.file index = .ok entry
  holds : image.Holds entry
  finishes : entry.base.value.toNat + entry.size.toNat < UInt32.size

theorem Mounts.reaches {image : Image} {index : Nat} {entry : Entry}
    (mounted : image.Mounts index entry) : image.Reaches index entry where
  filed := mounted.filed
  holds := mounted.holds
  finishes := by
    have finishLe := mounted.holds.2
    have addressable := mounted.addressable
    omega

/-- The images differ in the bytes of the file only, and in the open session. -/
structure Confined (entry : Entry) (before after : Image) : Prop where
  origin : after.origin = before.origin
  size : after.memory.size = before.memory.size
  files : after.files = before.files
  outside : ∀ place,
    before.origin.toNat + place < entry.base.value.toNat ∨
        entry.base.value.toNat + entry.size.toNat ≤ before.origin.toNat + place →
      after.memory[place]? = before.memory[place]?

section Confined

variable {entry : Entry} {index : Nat} {image before middle after : Image}

theorem Confined.refl (image : Image) (cursor : Option Cursor) :
    Confined entry image { image with cursor } :=
  ⟨rfl, rfl, rfl, fun _ _ => rfl⟩

theorem Confined.trans (first : Confined entry before middle)
    (second : Confined entry middle after) : Confined entry before after where
  origin := second.origin.trans first.origin
  size := second.size.trans first.size
  files := second.files.trans first.files
  outside := by
    intro place beyond
    rw [← first.outside place beyond]
    apply second.outside place
    rw [first.origin]
    exact beyond

theorem Confined.indexOf_eq (confined : Confined entry before after) (address : CodeAddress) :
    after.indexOf address = before.indexOf address := by
  unfold indexOf
  rw [confined.origin, confined.size]

theorem Confined.reaches (confined : Confined entry before after)
    (reaches : before.Reaches index entry) : after.Reaches index entry where
  filed := by
    have filed := reaches.filed
    unfold file at filed ⊢
    rw [confined.files]
    exact filed
  holds := by
    have holds := reaches.holds
    unfold Holds memoryEnd at holds ⊢
    rw [confined.origin, confined.size]
    exact holds
  finishes := reaches.finishes

theorem confined_rewritten {place : Nat} {chunk : Bytes} (cursor : Option Cursor)
    (holds : image.Holds entry) (fits : place + chunk.length ≤ entry.size.toNat) :
    Confined entry image (image.rewritten
      (entry.base.value.toNat + place - image.origin.toNat) chunk cursor) where
  origin := rfl
  size := size_rewritten _ _ _ _
  files := rfl
  outside := by
    intro index beyond
    have startLe := holds.1
    have finishLe := holds.2
    unfold memoryEnd at finishLe
    show (Bytes.overwrite _ _ _)[index]? = _
    rw [Bytes.getElem?_overwrite _ _ _ (by omega), if_neg (by omega)]

end Confined

section Session

variable {image : Image} {index : Nat} {entry : Entry} {position : UInt32}

/-- A write is refused or done: a session that stands inside its file cannot
leave the addresses, nor the memory. -/
theorem answered_writeSession (chunk : Bytes) (reaches : image.Reaches index entry)
    (busy : image.cursor = some ⟨index, position⟩) (inside : position.toNat ≤ entry.size.toNat)
    (short : chunk.length < UInt32.size) : (image.writeSession chunk).Answered := by
  have finishes := reaches.finishes
  have finishLe := reaches.holds.2
  have positionEq : position = position.toNat.toUInt32 := UInt32.ofNat_toNat.symm
  have covers := covers_place chunk finishes inside short
  rw [← positionEq] at covers
  have address : (entry.base.value + position).toNat =
      entry.base.value.toNat + position.toNat := by
    rw [UInt32.toNat_add, Nat.mod_eq_of_lt]
    exact Nat.lt_of_le_of_lt (Nat.add_le_add_left inside _) finishes
  unfold writeSession
  simp only [busy, reaches.filed, Outcome.ofExcept_ok, Outcome.bind_ok]
  rw [sum32_eq_ok (by omega), Outcome.bind_ok, covers, Outcome.bind_ok]
  by_cases fits : position.toNat + chunk.length ≤ entry.size.toNat
  · rw [if_pos (decide_eq_true fits)]
    apply Outcome.Answered.bind (Outcome.answered_ofExcept _)
    intro start indexed
    obtain ⟨originLe, -, startEq⟩ := indexOf_eq_ok (Outcome.ofExcept_eq_ok.mp indexed)
    simp only [address] at originLe startEq
    unfold memoryEnd at finishLe
    rw [if_pos (by omega)]
    apply Outcome.Answered.bind
    · rw [answered_sum32, toNat_toUInt32 short]
      omega
    · intro next _
      exact Outcome.answered_ok _
  · rw [if_neg (by simpa using fits)]
    exact Outcome.answered_refuse _

end Session

end Image

namespace WriteSession

variable {δ : Type} [Device δ] [Backed δ] {device : δ} {index : Nat} {entry : Entry}

open Image (Confined)

/-- Opening a file is accepted only for an offset inside it, and otherwise
refused with the image as it was. -/
theorem openFile_cases (offset : UInt32) (filed : (Backed.image device).file index = .ok entry) :
    (∃ opened, (Device.openFile index offset : Command δ).result device = (.ok (), opened) ∧
        Backed.image opened = { Backed.image device with cursor := some ⟨index, offset⟩ } ∧
        offset.toNat ≤ entry.size.toNat) ∨
      ∃ cause, ((Device.openFile index offset : Command δ).result device).1 =
          Outcome.refuse cause ∧
        Backed.image ((Device.openFile index offset : Command δ).result device).2 =
          Backed.image device := by
  rcases Backed.passes_openFile index offset device with ⟨outcome, image⟩ | refused
  · have inner := Image.result_replacing
      (fun image => Outcome.ofExcept (image.openSession index offset)) (Backed.image device)
    cases opening : (Backed.image device).openSession index offset with
    | error cause =>
        rw [opening] at inner
        exact .inr ⟨cause, outcome.trans (congrArg Prod.fst inner),
          image.trans (congrArg Prod.snd inner)⟩
    | ok opened =>
        rw [opening] at inner
        obtain ⟨-, openedEq, found, foundFiled, inside⟩ := Image.openSession_eq opening
        rw [filed] at foundFiled
        rw [← Except.ok.inj foundFiled] at inside
        exact .inl ⟨_, Prod.ext (outcome.trans (congrArg Prod.fst inner)) rfl,
          (image.trans (congrArg Prod.snd inner)).trans openedEq, inside⟩
  · exact .inr refused

/-- A write to an open session stays inside the file of the session, or is
refused with the image as it was. -/
theorem writeBytes_cases {position : UInt32} (chunk : Bytes)
    (reaches : (Backed.image device).Reaches index entry)
    (busy : (Backed.image device).cursor = some ⟨index, position⟩)
    (inside : position.toNat ≤ entry.size.toNat) (short : chunk.length < UInt32.size) :
    (∃ (wrote : δ) (next : UInt32),
        (Device.writeBytes chunk : Command δ).result device = (.ok (), wrote) ∧
        (Backed.image wrote).cursor = some ⟨index, next⟩ ∧ next.toNat ≤ entry.size.toNat ∧
        Confined entry (Backed.image device) (Backed.image wrote)) ∨
      ∃ cause, ((Device.writeBytes chunk : Command δ).result device).1 = Outcome.refuse cause ∧
        Backed.image ((Device.writeBytes chunk : Command δ).result device).2 =
          Backed.image device := by
  rcases Backed.passes_writeBytes chunk device with ⟨outcome, image⟩ | refused
  · have inner := Image.result_replacing
      (fun image => image.writeSession chunk) (Backed.image device)
    have answered := Image.answered_writeSession chunk reaches busy inside short
    cases writing : (Backed.image device).writeSession chunk with
    | error stop =>
        rw [writing] at inner answered
        cases stop with
        | halted halt => exact absurd rfl (answered halt)
        | refused cause =>
            exact .inr ⟨cause, outcome.trans (congrArg Prod.fst inner),
              image.trans (congrArg Prod.snd inner)⟩
    | ok wrote =>
        rw [writing] at inner
        obtain ⟨cursor, written, cursorEq, writtenFiled, -, -, fits, wroteEq⟩ :=
          Image.writeSession_eq writing
        rw [busy] at cursorEq
        obtain rfl := Option.some.inj cursorEq
        rw [reaches.filed] at writtenFiled
        obtain rfl := Except.ok.inj writtenFiled
        have after := (image.trans (congrArg Prod.snd inner)).trans wroteEq
        refine .inl ⟨_, position + chunk.length.toUInt32,
          Prod.ext (outcome.trans (congrArg Prod.fst inner)) rfl, ?_, ?_, ?_⟩
        · rw [after]
          rfl
        · rw [UInt32.toNat_add]
          exact Nat.le_trans (Nat.mod_le _ _) fits
        · rw [after]
          rw [toNat_toUInt32 short] at fits
          exact Image.confined_rewritten _ reaches.holds fits
  · exact .inr refused

theorem closeFile_confined (entry : Entry) (device : δ) :
    ((Device.closeFile : Command δ).result device).1.Answered ∧
      Confined entry (Backed.image device)
        (Backed.image ((Device.closeFile : Command δ).result device).2) := by
  rcases Backed.passes_closeFile device with ⟨outcome, image⟩ | ⟨cause, outcome, image⟩
  · rw [outcome, image]
    cases cursor : (Backed.image device).cursor with
    | none =>
        have refused : (Device.closeFile : Command Image).result (Backed.image device) =
            (Outcome.refuse .sessionNotOpen, Backed.image device) := by
          show Image.closeSession.result _ = _
          unfold Operation.result Image.closeSession
          simp only [cursor]
          rfl
        rw [refused]
        exact ⟨Outcome.answered_refuse _, .refl _ _⟩
    | some standing =>
        rw [Image.result_closeFile cursor]
        exact ⟨Outcome.answered_ok _, .refl _ _⟩
  · rw [outcome, image]
    exact ⟨Outcome.answered_refuse cause, .refl _ _⟩

/-- An open session writes inside its file, up to the first byte string that is
refused. -/
theorem writeAll_confined (session : WriteSession) (chunks : List Bytes)
    (short : ∀ chunk ∈ chunks, chunk.length < UInt32.size) (device : δ) {position : UInt32}
    (reaches : (Backed.image device).Reaches index entry)
    (busy : (Backed.image device).cursor = some ⟨index, position⟩)
    (inside : position.toNat ≤ entry.size.toNat) :
    ((session.writeAll chunks).result device).1.Answered ∧
      Confined entry (Backed.image device)
        (Backed.image ((session.writeAll chunks).result device).2) := by
  induction chunks generalizing session device position with
  | nil => exact ⟨Outcome.answered_ok _, .refl _ _⟩
  | cons chunk rest inductionHypothesis =>
      obtain ⟨chunkShort, restShort⟩ := List.forall_mem_cons.mp short
      rw [result_writeAll_cons]
      rcases writeBytes_cases chunk reaches busy inside chunkShort with
        ⟨wrote, next, accepted, nextBusy, nextInside, confined⟩ | ⟨cause, refused, image⟩
      · rw [accepted]
        have behind := inductionHypothesis
          { session with written := session.written + chunk.length } restShort wrote
          (confined.reaches reaches) nextBusy nextInside
        exact ⟨behind.1, confined.trans behind.2⟩
      · generalize (Device.writeBytes chunk : Command δ).result device = stepped at refused image ⊢
        obtain ⟨outcome, after⟩ := stepped
        simp only at refused image
        subst refused
        refine ⟨Outcome.answered_refuse cause, ?_⟩
        show Confined entry _ (Backed.image after)
        rw [image]
        exact .refl _ _

/-- A session for any offset and any byte strings changes nothing outside its
file, and does not halt. -/
theorem run_confined (device : δ) (offset : UInt32) (chunks : List Bytes)
    (short : ∀ chunk ∈ chunks, chunk.length < UInt32.size)
    (reaches : (Backed.image device).Reaches index entry) :
    ((run index offset chunks).result device).1.Answered ∧
      Confined entry (Backed.image device)
        (Backed.image ((run index offset chunks).result device).2) := by
  rcases openFile_cases offset reaches.filed with
    ⟨opened, accepted, image, inside⟩ | ⟨cause, refused, image⟩
  · have opening : Confined entry (Backed.image device) (Backed.image opened) := by
      rw [image]
      exact .refl _ _
    obtain ⟨answered, writing⟩ := writeAll_confined (⟨index, 0⟩ : WriteSession) chunks short
      opened (opening.reaches reaches) (by rw [image]) inside
    rw [result_run_of_open accepted]
    generalize ((⟨index, 0⟩ : WriteSession).writeAll chunks).result opened = finished
      at answered writing ⊢
    obtain ⟨outcome, after⟩ := finished
    obtain ⟨closeAnswered, closing⟩ := closeFile_confined entry after
    cases outcome with
    | ok session => exact ⟨closeAnswered, opening.trans (writing.trans closing)⟩
    | error stop => exact ⟨answered.error, opening.trans (writing.trans closing)⟩
  · rw [result_run_of_refused refused]
    refine ⟨Outcome.answered_refuse cause, ?_⟩
    show Confined entry _ (Backed.image _)
    rw [image]
    exact .refl _ _

end WriteSession

end CodeCapsules.Flash

namespace CodeCapsules.Store

open Flash (Backed Device Fallible FaultPlan FaultyDevice Image WriteSession)
open Flash.Image (Confined)

section Actions

variable {δ : Type} [Device δ] [Backed δ] {container : Container} {device : δ}

theorem short_recordChunks {header : Header} {code : Bytes} (available : Nat)
    (sized : header.length.toNat = headerSize + code.length) :
    ∀ chunk ∈ recordChunks header code available, chunk.length < UInt32.size := by
  have lengthLt : header.length.toNat < 2 ^ 16 := header.length.toNat_lt
  have sizeEq : UInt32.size = 2 ^ 32 := rfl
  have headerShort : header.encode.length < UInt32.size := by
    rw [header.length_encode]
    decide
  have codeShort : code.length < UInt32.size := by omega
  have terminatorShort : (List.replicate terminatorSize (0 : UInt8)).length < UInt32.size := by
    decide
  intro chunk member
  unfold recordChunks at member
  split at member
  · rcases List.mem_cons.mp member with rfl | member
    · exact headerShort
    · rcases List.mem_cons.mp member with rfl | member
      · exact codeShort
      · rw [List.mem_singleton.mp member]
        exact terminatorShort
  · rcases List.mem_cons.mp member with rfl | member
    · exact headerShort
    · rw [List.mem_singleton.mp member]
      exact codeShort

theorem append_confined (header : Header) (code : Bytes)
    (reaches : (Backed.image device).Reaches container.index container.entry) :
    ((append container header code).result device).1.Answered ∧
      Confined container.entry (Backed.image device)
        (Backed.image ((append container header code).result device).2) := by
  have found := answered_find (Device.archive device) reaches.finishes header.length header.hash
  rw [result_append]
  split
  · exact ⟨Outcome.answered_refuse _, .refl _ _⟩
  · split
    · exact ⟨Outcome.answered_refuse _, .refl _ _⟩
    · rename_i sized
      split
      · rename_i stop failed
        rw [failed] at found
        exact ⟨found.error, .refl _ _⟩
      · exact ⟨Outcome.answered_ok _, .refl _ _⟩
      · rw [result_appendAt]
        split
        · exact ⟨Outcome.answered_refuse _, .refl _ _⟩
        · rename_i offset _ _
          obtain ⟨answered, confined⟩ := WriteSession.run_confined device offset.value.toUInt32
            (recordChunks header code (container.capacity - offset.value.toNat))
            (short_recordChunks _ (Decidable.not_not.mp sized)) reaches
          refine ⟨?_, confined⟩
          rw [Outcome.answered_map, Outcome.answered_mapCause]
          exact answered

theorem appendCode_confined (hash : Hash) (code : Bytes)
    (reaches : (Backed.image device).Reaches container.index container.entry) :
    ((appendCode container hash code).result device).1.Answered ∧
      Confined container.entry (Backed.image device)
        (Backed.image ((appendCode container hash code).result device).2) := by
  rw [result_appendCode]
  split
  · exact ⟨Outcome.answered_refuse _, .refl _ _⟩
  · exact append_confined _ code reaches

theorem erase_confined
    (reaches : (Backed.image device).Reaches container.index container.entry) :
    ((erase container).result device).1.Answered ∧
      Confined container.entry (Backed.image device)
        (Backed.image ((erase container).result device).2) := by
  obtain ⟨answered, confined⟩ := WriteSession.run_confined device 0 [eraseMark]
    (by simp only [List.forall_mem_singleton]; decide) reaches
  rw [result_erase]
  exact ⟨(Outcome.answered_mapCause _ _).mpr answered, confined⟩

/-- The operation on a store does not halt, keeps the container, and changes
nothing outside it. -/
structure Harmless {α : Type} (operation : Operation (Store δ) Error α) (store : Store δ) :
    Prop where
  answered : (operation.result store).1.Answered
  located : (operation.result store).2.container = store.container
  confined : Confined store.container.entry (Backed.image store.device)
    (Backed.image (operation.result store).2.device)

theorem Harmless.map {α β : Type} {operation : Operation (Store δ) Error α} {store : Store δ}
    (harmless : Harmless operation store) (change : α → β) :
    Harmless (change <$> operation) store := by
  have answered := harmless.answered
  rw [← Outcome.answered_map change] at answered
  refine ⟨?_, ?_, ?_⟩ <;> rw [Operation.result_map]
  · exact answered
  · exact harmless.located
  · exact harmless.confined

theorem harmless_reading {α : Type} (read : Store δ → Logged Error α) (store : Store δ)
    (answered : (read store).outcome.Answered) : Harmless (Call.reading read) store :=
  ⟨answered, rfl, .refl _ _⟩

theorem harmless_onDevice {α : Type} (operation : Container → Operation δ Error α)
    (store : Store δ)
    (onDevice : ((operation store.container).result store.device).1.Answered ∧
      Confined store.container.entry (Backed.image store.device)
        (Backed.image ((operation store.container).result store.device).2)) :
    Harmless (Store.onDevice operation) store :=
  ⟨onDevice.1, rfl, onDevice.2⟩

theorem harmless_clear (store : Store δ)
    (reaches : (Backed.image store.device).Reaches store.container.index store.container.entry) :
    Harmless clear store := by
  have erasing := erase_confined reaches
  have cleared := result_clear store
  generalize (erase store.container).result store.device = erased at erasing cleared
  obtain ⟨outcome, device⟩ := erased
  obtain ⟨answered, confined⟩ := erasing
  cases outcome with
  | ok done => exact ⟨by rw [cleared]; simp, by rw [cleared], by rw [cleared]; exact confined⟩
  | error stop =>
      exact ⟨by rw [cleared]; exact answered, by rw [cleared], by rw [cleared]; exact confined⟩

theorem harmless_perform (call : Call) (store : Store δ)
    (reaches : (Backed.image store.device).Reaches store.container.index store.container.entry) :
    Harmless call.perform store := by
  have addressable : store.container.base.value.toNat + store.container.capacity < UInt32.size :=
    reaches.finishes
  unfold Call.perform
  cases call with
  | append header code =>
      apply Harmless.map
      exact harmless_onDevice _ store (append_confined header code reaches)
  | appendCode hash code =>
      apply Harmless.map
      exact harmless_onDevice _ store (appendCode_confined hash code reaches)
  | erase =>
      apply Harmless.map
      exact harmless_clear store reaches
  | find length hash =>
      apply Harmless.map
      exact harmless_reading _ store (answered_find _ addressable length hash)
  | lookup length hash =>
      apply Harmless.map
      apply harmless_reading
      unfold Store.lookup
      rw [Logged.outcome_bind]
      apply Outcome.Answered.bind (answered_find _ addressable length hash)
      intro slot _
      exact Outcome.answered_ok _
  | list =>
      apply Harmless.map
      exact harmless_reading _ store (answered_records _ addressable)
  | used =>
      apply Harmless.map
      exact harmless_reading _ store (answered_usedBytes _ addressable)
  | free =>
      apply Harmless.map
      exact harmless_reading _ store (answered_freeBytes _ addressable)

/-- One action: it is answered, and nothing outside the container changes. -/
theorem Action.confined (action : Action) (store : Store δ)
    (reaches : (Backed.image store.device).Reaches store.container.index store.container.entry) :
    (action.result store).1.Answered ∧ (action.result store).2.container = store.container ∧
      Confined store.container.entry (Backed.image store.device)
        (Backed.image (action.result store).2.device) := by
  cases action with
  | invoke caller offset width =>
      exact ⟨answered_invoke reaches.finishes offset width caller, rfl, .refl _ _⟩
  | perform call =>
      have harmless := harmless_perform call store reaches
      exact ⟨(Outcome.answered_map _ _).mpr harmless.answered, harmless.located,
        harmless.confined⟩

end Actions

section Runs

variable {δ : Type} [Device δ] [Fallible δ] {admitted : Action → Prop} {store last : Store δ}

theorem confined_of_runs (ran : Runs admitted store last)
    (reaches : (Backed.image store.device).Reaches store.container.index store.container.entry) :
    last.container = store.container ∧
      (Backed.image last.device).Reaches store.container.index store.container.entry ∧
      Confined store.container.entry (Backed.image store.device) (Backed.image last.device) := by
  refine ran.keeps (fun container image => container = store.container ∧
    image.Reaches store.container.index store.container.entry ∧
      Confined store.container.entry (Backed.image store.device) image) ?_
    ⟨rfl, reaches, .refl _ _⟩
  rintro before action - ⟨located, reaches, confined⟩
  rw [← located] at reaches
  obtain ⟨-, containerEq, step⟩ := action.confined before reaches
  rw [located] at reaches step
  exact ⟨containerEq.trans located, step.reaches reaches, confined.trans step⟩

/-- A store touches nothing but its container. On a device that may refuse any
call, whatever was done with the store: every further action is answered, the
image differs from the first one in the bytes of the container only, the search
for the container answers what the store has, and so does the search for the
code at an offset. -/
theorem store_touches_only_its_container (device : δ) (config : Config) (store last : Store δ)
    (valid : (Backed.image device).validate = .ok ())
    (addressable : (Backed.image device).memoryEnd < UInt32.size)
    (opened : (start device config).outcome = .ok store)
    (ran : Runs (fun _ => True) store last) :
    (∀ action : Action, (action.result last).1.Answered) ∧
      last.container = store.container ∧
      Confined store.container.entry (Backed.image device) (Backed.image last.device) ∧
      (locate (Backed.image last.device).archive config.containerType).outcome =
        .ok last.container.index ∧
      ∀ offset : Offset,
        last.container.base.value.toNat + offset.value.toNat + headerSize < UInt32.size →
        ∃ address : CodeAddress,
          address.value.toNat =
            last.container.base.value.toNat + offset.value.toNat + headerSize ∧
          last.codeAddress offset = .ok address ∧
          (resolve (Backed.image last.device).archive config.containerType offset).outcome =
            .ok address := by
  obtain ⟨located, storeEq⟩ := eq_of_start opened
  have plainLocated := container_locate_of_veils (Fallible.veils device) located
  have deviceEq : store.device = device := by rw [storeEq]
  have reaches : (Backed.image store.device).Reaches store.container.index
      store.container.entry := by
    rw [deviceEq]
    exact (mounts_of_locate valid addressable plainLocated).reaches
  obtain ⟨containerEq, lastReaches, confined⟩ := confined_of_runs ran reaches
  rw [deviceEq] at confined
  -- The table of files is the old one, so that the container is found as before.
  have lastLocated : (Container.locate (Backed.image last.device).archive
      config.containerType).outcome = .ok last.container := by
    rw [locate_congr confined.files, containerEq]
    exact plainLocated
  refine ⟨?_, containerEq, confined, (container_locate_eq_ok.mp lastLocated).1, ?_⟩
  · intro action
    rw [← containerEq] at lastReaches
    exact (action.confined last lastReaches).1
  · intro offset fits
    have codeAddress : last.codeAddress offset = .ok
        ⟨last.container.base.value + (offset.value.toNat + headerSize).toUInt32⟩ :=
      addressOf_place (by omega)
    refine ⟨_, ?_, codeAddress, ?_⟩
    · rw [toNat_add_place _ _ (by omega), Nat.add_assoc]
    · unfold resolve
      rw [Logged.outcome_bind, lastLocated, Outcome.bind_ok]
      exact codeAddress

end Runs

/-- Sixteen erased bytes between two bytes before them and one behind them. -/
def fencedImage : Image :=
  ⟨0x1FE, #[0xAA, 0xBB] ++ Array.replicate 16 0 ++ #[0xCC],
    [⟨⟨0x1FE⟩, 2, ⟨1⟩⟩, ⟨⟨0x200⟩, 16, .capsuleBuffer⟩], none⟩

/-- The store on `fencedImage`, behind a device that refuses the first close. -/
def fencedStore : Store FaultyDevice :=
  ⟨.start fencedImage { FaultPlan.none with closes := [1] }, .standard,
    ⟨1, ⟨⟨0x200⟩, 16, .capsuleBuffer⟩, by decide⟩, .initial⟩

/-- An append whose session stays open, and an erase that is refused for it. -/
theorem store_touches_only_its_container_between_fences :
    ∃ last, Runs (fun _ => True) fencedStore last ∧
      (Backed.image last.device).sessionOpen = true ∧
      (Backed.image last.device).memory[2]? = some 8 ∧
      (Backed.image last.device).memory[1]? = some 0xBB ∧
      (Backed.image last.device).memory[18]? = some 0xCC ∧
      ((Action.perform .list).result last).1.Answered ∧
      (locate (Backed.image last.device).archive .capsuleBuffer).outcome =
        .ok last.container.index := by
  have ran : Runs (fun _ => True) fencedStore (Action.result
      ((Action.perform (.appendCode ⟨1, 2, 3, 4⟩ [0x08, 0x95])).result fencedStore).2
      (.perform .erase)).2 := .act _ trivial (.act _ trivial (.done _))
  obtain ⟨answered, -, confined, located, -⟩ := store_touches_only_its_container
    fencedStore.device .standard fencedStore _ (by decide) (by decide) rfl ran
  refine ⟨_, ran, by decide +kernel, by decide +kernel, ?_, ?_, answered _, located⟩
  · rw [confined.outside 1 (by decide)]
    rfl
  · rw [confined.outside 18 (by decide)]
    rfl

end CodeCapsules.Store
