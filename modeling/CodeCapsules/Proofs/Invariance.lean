import CodeCapsules.Proofs.Log
import CodeCapsules.Proofs.Writing

/-!
Contract: what every command of a device keeps, every call of a store keeps.

Owns:
- `Keeps`, a property that opening, writing and closing keep, and its lift to
  sessions, appends and erases;
- `after`, the store that a list of calls leaves, and what one call can do;
- the table of files and the extent of memory, which nothing changes;
- `Legible`, devices that may refuse commands but are read as their image.

Main statement: a property of devices that the three commands keep holds after
every list of calls.
-/

namespace CodeCapsules.Flash

/-- Opening, writing and closing keep this property of a device, however they
end. -/
structure Keeps {δ : Type} [Device δ] (kept : δ → Prop) : Prop where
  openFile : ∀ (index : Nat) (offset : UInt32) (device : δ), kept device →
    kept ((Device.openFile index offset : Command δ).result device).2
  writeBytes : ∀ (chunk : Bytes) (device : δ), kept device →
    kept ((Device.writeBytes chunk : Command δ).result device).2
  closeFile : ∀ device : δ, kept device → kept ((Device.closeFile : Command δ).result device).2

namespace Keeps

variable {δ : Type} [Device δ] {kept : δ → Prop}

theorem writeAll (keeps : Keeps kept) (session : WriteSession) (chunks : List Bytes) (device : δ)
    (holds : kept device) : kept ((session.writeAll chunks).result device).2 := by
  induction chunks generalizing session device with
  | nil => exact holds
  | cons chunk rest inductionHypothesis =>
      have written := keeps.writeBytes chunk device holds
      rw [WriteSession.result_writeAll_cons]
      generalize (Device.writeBytes chunk : Command δ).result device = stepped at written ⊢
      obtain ⟨outcome, after⟩ := stepped
      cases outcome with
      | ok done => exact inductionHypothesis _ after written
      | error stop => exact written

theorem run (keeps : Keeps kept) (index : Nat) (offset : UInt32) (chunks : List Bytes) (device : δ)
    (holds : kept device) : kept ((WriteSession.run index offset chunks).result device).2 := by
  have opened := keeps.openFile index offset device holds
  cases outcome : ((Device.openFile index offset : Command δ).result device).1 with
  | error stop =>
      rw [WriteSession.result_run_of_refused outcome]
      exact opened
  | ok done =>
      rw [WriteSession.result_run_of_open (Prod.ext outcome rfl)]
      have written := keeps.writeAll ⟨index, 0⟩ chunks _ opened
      generalize ((⟨index, 0⟩ : WriteSession).writeAll chunks).result
        ((Device.openFile index offset : Command δ).result device).2 = finished at written ⊢
      obtain ⟨ended, after⟩ := finished
      cases ended with
      | ok session => exact keeps.closeFile after written
      | error stop => exact keeps.closeFile after written

/-- What the image keeps under its own commands, a device before it keeps too. -/
theorem behind [Backed δ] {kept : Image → Prop} (keeps : Keeps kept) :
    Keeps fun device : δ => kept (Backed.image device) where
  openFile := by
    intro index offset device holds
    rcases Backed.passes_openFile index offset device with ⟨-, image⟩ | ⟨-, -, image⟩
    · rw [image]
      exact keeps.openFile index offset _ holds
    · rw [image]
      exact holds
  writeBytes := by
    intro chunk device holds
    rcases Backed.passes_writeBytes chunk device with ⟨-, image⟩ | ⟨-, -, image⟩
    · rw [image]
      exact keeps.writeBytes chunk _ holds
    · rw [image]
      exact holds
  closeFile := by
    intro device holds
    rcases Backed.passes_closeFile device with ⟨-, image⟩ | ⟨-, -, image⟩
    · rw [image]
      exact keeps.closeFile _ holds
    · rw [image]
      exact holds

theorem and {other : δ → Prop} (keeps : Keeps kept) (keepsOther : Keeps other) :
    Keeps fun device => kept device ∧ other device where
  openFile index offset device holds :=
    ⟨keeps.openFile index offset device holds.1, keepsOther.openFile index offset device holds.2⟩
  writeBytes chunk device holds :=
    ⟨keeps.writeBytes chunk device holds.1, keepsOther.writeBytes chunk device holds.2⟩
  closeFile device holds :=
    ⟨keeps.closeFile device holds.1, keepsOther.closeFile device holds.2⟩

end Keeps

/-! ## What an image keeps -/

namespace Image

/-- The image with other bytes in its memory, and the session as it then
stands. -/
def rewritten (image : Image) (start : Nat) (chunk : Bytes) (cursor : Option Cursor) : Image :=
  { image with memory := Bytes.overwrite image.memory start chunk, cursor }

@[simp]
theorem origin_rewritten (image : Image) (start : Nat) (chunk : Bytes) (cursor : Option Cursor) :
    (image.rewritten start chunk cursor).origin = image.origin := rfl

@[simp]
theorem size_rewritten (image : Image) (start : Nat) (chunk : Bytes) (cursor : Option Cursor) :
    (image.rewritten start chunk cursor).memory.size = image.memory.size :=
  Bytes.size_overwrite _ _ _

theorem result_replacing (change : Image → Outcome Error Image) (image : Image) :
    (replacing change).result image =
      match change image with
      | .ok changed => (.ok (), changed)
      | .error stop => (.error stop, image) := by
  unfold Operation.result replacing
  cases change image with
  | ok changed => rfl
  | error stop => rfl

theorem openSession_eq {image opened : Image} {index : Nat} {offset : UInt32}
    (accepted : image.openSession index offset = .ok opened) :
    image.cursor = none ∧ opened = { image with cursor := some ⟨index, offset⟩ } ∧
      ∃ entry, image.file index = .ok entry ∧ offset.toNat ≤ entry.size.toNat := by
  unfold openSession at accepted
  cases cursor : image.cursor with
  | some standing =>
      rw [cursor] at accepted
      contradiction
  | none =>
      rw [cursor] at accepted
      cases filed : image.file index with
      | error cause =>
          rw [filed] at accepted
          contradiction
      | ok entry =>
          rw [filed] at accepted
          change (if offset ≤ entry.size then _ else _) = _ at accepted
          split at accepted
          · rename_i inside
            exact ⟨rfl, (Except.ok.inj accepted).symm, entry, rfl,
              UInt32.le_iff_toNat_le.mp inside⟩
          · contradiction

/-- A write that is accepted overwrites memory from the place of the session
on, and moves the session behind the bytes. -/
theorem writeSession_eq {image wrote : Image} {chunk : Bytes}
    (accepted : image.writeSession chunk = .ok wrote) :
    ∃ (cursor : Cursor) (entry : Entry),
      image.cursor = some cursor ∧ image.file cursor.fileIndex = .ok entry ∧
      image.origin.toNat ≤ entry.base.value.toNat + cursor.position.toNat ∧
      entry.base.value.toNat + cursor.position.toNat - image.origin.toNat + chunk.length ≤
        image.memory.size ∧
      cursor.position.toNat + chunk.length.toUInt32.toNat ≤ entry.size.toNat ∧
      wrote = image.rewritten
        (entry.base.value.toNat + cursor.position.toNat - image.origin.toNat) chunk
        (some ⟨cursor.fileIndex, cursor.position + chunk.length.toUInt32⟩) := by
  unfold writeSession at accepted
  cases busy : image.cursor with
  | none =>
      rw [busy] at accepted
      contradiction
  | some cursor =>
      rw [busy] at accepted
      obtain ⟨entry, filed, accepted⟩ := Outcome.bind_eq_ok.mp accepted
      obtain ⟨address, summed, accepted⟩ := Outcome.bind_eq_ok.mp accepted
      obtain ⟨covered, covers, accepted⟩ := Outcome.bind_eq_ok.mp accepted
      obtain ⟨fits, addressEq⟩ := sum32_eq_ok_iff.mp summed
      have addressNat : address.toNat = entry.base.value.toNat + cursor.position.toNat := by
        rw [addressEq, UInt32.toNat_add, Nat.mod_eq_of_lt fits]
      cases covered with
      | false => contradiction
      | true =>
          simp only [if_true] at accepted
          have finishLe := (Entry.covers_eq_true covers).2
          simp only [addressNat] at finishLe
          obtain ⟨start, indexed, accepted⟩ := Outcome.bind_eq_ok.mp accepted
          obtain ⟨originLe, -, startEq⟩ := indexOf_eq_ok (Outcome.ofExcept_eq_ok.mp indexed)
          simp only [addressNat] at originLe startEq
          subst startEq
          split at accepted
          · rename_i room
            obtain ⟨position, moved, accepted⟩ := Outcome.bind_eq_ok.mp accepted
            obtain ⟨-, positionEq⟩ := sum32_eq_ok_iff.mp moved
            rw [positionEq] at accepted
            exact ⟨cursor, entry, rfl, Outcome.ofExcept_eq_ok.mp filed, originLe, room, by omega,
              (Except.ok.inj accepted).symm⟩
          · contradiction

/-- What holds whatever the bytes and the session are is kept by an image. -/
theorem keeps_of_layout {kept : Image → Prop}
    (layout : ∀ (image : Image) (start : Nat) (chunk : Bytes) (cursor : Option Cursor),
      kept image → kept (image.rewritten start chunk cursor)) : Keeps kept where
  openFile := by
    intro index offset image holds
    show kept ((replacing fun image => Outcome.ofExcept
      (image.openSession index offset)).result image).2
    rw [result_replacing]
    cases opening : image.openSession index offset with
    | error cause => exact holds
    | ok opened =>
        rw [(openSession_eq opening).2.1]
        exact layout image 0 [] _ holds
  writeBytes := by
    intro chunk image holds
    show kept ((replacing fun image => image.writeSession chunk).result image).2
    rw [result_replacing]
    cases writing : image.writeSession chunk with
    | error stop => exact holds
    | ok wrote =>
        obtain ⟨cursor, entry, -, -, -, -, -, wroteEq⟩ := writeSession_eq writing
        rw [wroteEq]
        exact layout image _ chunk _ holds
  closeFile := by
    intro image holds
    show kept (closeSession.result image).2
    unfold Operation.result closeSession
    cases image.cursor with
    | none => exact holds
    | some cursor => exact layout image 0 [] none holds

theorem keeps_file (index : Nat) (entry : Entry) :
    Keeps fun image : Image => image.file index = .ok entry :=
  keeps_of_layout fun _ _ _ _ filed => filed

theorem keeps_mounts (index : Nat) (entry : Entry) :
    Keeps fun image : Image => image.Mounts index entry := by
  apply keeps_of_layout
  intro image start chunk cursor mounted
  have memoryEnd : (image.rewritten start chunk cursor).memoryEnd = image.memoryEnd := by
    simp [Image.memoryEnd]
  refine ⟨mounted.filed, ?_, ?_⟩
  · have holds := mounted.holds
    unfold Holds at holds ⊢
    rw [memoryEnd]
    exact holds
  · rw [memoryEnd]
    exact mounted.addressable

end Image

/-- A device that is read as the image behind it as long as it is `Readable`,
whatever commands it refuses. -/
class Legible (δ : Type) [Device δ] extends Backed δ where
  Readable : δ → Prop
  keeps_readable : Keeps Readable
  archive_eq : ∀ device, Readable device → Device.archive device = (image device).archive

instance : Legible Image where
  Readable _ := True
  keeps_readable := ⟨fun _ _ _ _ => trivial, fun _ _ _ => trivial, fun _ _ => trivial⟩
  archive_eq _ _ := rfl

theorem FaultyDevice.plan_passing (refused : Bool) (call : Call) (command : Command Image)
    (device : FaultyDevice) :
    ((passing refused call command).result device).2.plan = device.plan := by
  unfold passing
  cases refused with
  | true => rfl
  | false => rfl

instance : Legible FaultyDevice where
  Readable device := device.plan.reads = [] ∧ device.plan.files = []
  keeps_readable := by
    refine ⟨?_, ?_, ?_⟩
    · intro index offset device readable
      have planEq : ((Device.openFile index offset : Command FaultyDevice).result device).2.plan =
          device.plan := FaultyDevice.plan_passing _ _ _ { device with opened := device.opened + 1 }
      rw [planEq]
      exact readable
    · intro chunk device readable
      have planEq : ((Device.writeBytes chunk : Command FaultyDevice).result device).2.plan =
          device.plan :=
        FaultyDevice.plan_passing _ _ _ { device with written := device.written + 1 }
      rw [planEq]
      exact readable
    · intro device readable
      have planEq : ((Device.closeFile : Command FaultyDevice).result device).2.plan =
          device.plan := FaultyDevice.plan_passing _ _ _ { device with closed := device.closed + 1 }
      rw [planEq]
      exact readable
  archive_eq device readable := by
    show device.archive = device.image.archive
    unfold FaultyDevice.archive Image.archive
    simp [readable.1, readable.2]

end CodeCapsules.Flash

/-! ## Calls of a store -/

namespace CodeCapsules.Store

open Flash (Device Keeps)

section Calls

variable {δ : Type} [Device δ] {kept : δ → Prop}

theorem keeps_append (keeps : Keeps kept) (container : Container) (header : Header) (code : Bytes)
    (device : δ) (holds : kept device) :
    kept ((append container header code).result device).2 := by
  rcases result_append_cases container header code device with
    ⟨same, -⟩ | ⟨_, -, -, -, -, result⟩
  · rw [same]
    exact holds
  · rw [result]
    exact keeps.run _ _ _ device holds

theorem keeps_erase (keeps : Keeps kept) (container : Container) (device : δ)
    (holds : kept device) : kept ((erase container).result device).2 := by
  rw [result_erase]
  exact keeps.run _ _ _ device holds

/-- Clearing a store: the erase of its container, and a new generation if that
succeeds. -/
theorem result_clear (store : Store δ) :
    clear.result store =
      match (erase store.container).result store.device with
      | (.ok _, device) =>
          (.ok (), { store with device, generation := store.generation.next })
      | (.error stop, device) => (.error stop, { store with device }) := by
  unfold clear
  rw [Operation.result_bind]
  have onDevice : (Store.onDevice erase).result store =
      (((erase store.container).result store.device).1,
        { store with device := ((erase store.container).result store.device).2 }) := rfl
  rw [onDevice]
  generalize (erase store.container).result store.device = erased
  obtain ⟨outcome, device⟩ := erased
  cases outcome with
  | ok done => rfl
  | error stop => rfl

theorem clear_eq_error {store : Store δ} {stop : Stop Error} :
    (clear.result store).1 = .error stop ↔
      ((erase store.container).result store.device).1 = .error stop := by
  rw [result_clear]
  generalize (erase store.container).result store.device = erased
  obtain ⟨outcome, device⟩ := erased
  cases outcome with
  | ok done => exact ⟨nofun, nofun⟩
  | error cause => exact Iff.rfl

/-- What a call can do: leave the store, append to its device, or erase its
container. Only an erase that succeeds answers so. -/
theorem perform_cases (call : Call) (store : Store δ) :
    ((call.perform.result store).1 ≠ .ok .erased ∧
        ((call.perform.result store).2 = store ∨
          ∃ header code, (call.perform.result store).2 =
            { store with device := ((append store.container header code).result store.device).2 })) ∨
      (call = .erase ∧ ((erase store.container).result store.device).1 = .ok () ∧
        call.perform.result store =
          (.ok .erased,
            { store with
              device := ((erase store.container).result store.device).2
              generation := store.generation.next })) ∨
      ∃ stop, call = .erase ∧ ((erase store.container).result store.device).1 = .error stop ∧
        call.perform.result store =
          (.error stop,
            { store with device := ((erase store.container).result store.device).2 }) := by
  have unlike : ∀ {α : Type} (reply : α → Reply) (answer : Outcome Error α),
      (∀ value, reply value ≠ .erased) → answer.map reply ≠ .ok .erased := by
    intro α reply answer apart
    cases answer with
    | error stop => exact fun same => by contradiction
    | ok value => exact fun same => apart value (Except.ok.inj same)
  cases call with
  | append header code =>
      left
      simp only [Call.perform, Operation.result_map]
      exact ⟨unlike _ _ (by simp), .inr ⟨header, code, rfl⟩⟩
  | appendCode hash code =>
      left
      simp only [Call.perform, Operation.result_map]
      refine ⟨unlike _ _ (by simp), ?_⟩
      have leaves : ((addCode hash code).result store).2 =
          { store with
            device := ((appendCode store.container hash code).result store.device).2 } := rfl
      rw [leaves, result_appendCode]
      cases Header.ofCode hash code with
      | error cause => exact .inl rfl
      | ok header => exact .inr ⟨header, code, rfl⟩
  | erase =>
      right
      simp only [Call.perform, Operation.result_map, result_clear]
      generalize (erase store.container).result store.device = erased
      obtain ⟨outcome, device⟩ := erased
      cases outcome with
      | ok done => exact .inl ⟨trivial, rfl, rfl⟩
      | error stop => exact .inr ⟨stop, trivial, rfl, rfl⟩
  | find _ _ | lookup _ _ | list | used | free =>
      left
      simp only [Call.perform, Operation.result_map, Call.result_reading]
      exact ⟨unlike _ _ (by simp), .inl trivial⟩

/-- A call keeps the container of a store, and what commands keep of its
device. -/
theorem keeps_perform (keeps : Keeps kept) (call : Call) (store : Store δ)
    (holds : kept store.device) :
    (call.perform.result store).2.container = store.container ∧
      kept (call.perform.result store).2.device := by
  rcases perform_cases call store with
    ⟨-, same | ⟨header, code, appended⟩⟩ | ⟨-, -, erased⟩ | ⟨stop, -, -, refused⟩
  · rw [same]
    exact ⟨rfl, holds⟩
  · rw [appended]
    exact ⟨rfl, keeps_append keeps _ header code _ holds⟩
  · rw [erased]
    exact ⟨rfl, keeps_erase keeps _ _ holds⟩
  · rw [refused]
    exact ⟨rfl, keeps_erase keeps _ _ holds⟩

/-! ## Runs -/

/-- The store after calls that are made one after the other. -/
def after (calls : List Call) (store : Store δ) : Store δ :=
  calls.foldl (fun store call => (call.perform.result store).2) store

@[simp]
theorem after_nil (store : Store δ) : after [] store = store := rfl

@[simp]
theorem after_cons (call : Call) (rest : List Call) (store : Store δ) :
    after (call :: rest) store = after rest (call.perform.result store).2 := rfl

theorem after_append (earlier later : List Call) (store : Store δ) :
    after (earlier ++ later) store = after later (after earlier store) :=
  List.foldl_append

theorem keeps_after (keeps : Keeps kept) (calls : List Call) (store : Store δ)
    (holds : kept store.device) :
    (after calls store).container = store.container ∧ kept (after calls store).device := by
  induction calls generalizing store with
  | nil => exact ⟨rfl, holds⟩
  | cons call rest inductionHypothesis =>
      obtain ⟨container, next⟩ := keeps_perform keeps call store holds
      rw [after_cons, ← container]
      exact inductionHypothesis _ next

end Calls

end CodeCapsules.Store
