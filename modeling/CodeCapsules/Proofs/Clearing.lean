import CodeCapsules.Proofs.Atomicity
import CodeCapsules.Proofs.Invariance

/-!
Contract: what an erase leaves on a device that may refuse calls.

Owns:
- a session whose bytes do not fit its file, and one that failed although all
  its bytes were written;
- `Torn`, an erase that wrote its mark and was refused;
- the three ways in which an erase can end.

Main statement: an erase that is refused left the walk as it was, unless its
mark was written and only the close was refused: then the container is empty.
-/

namespace CodeCapsules.Flash

namespace Image

variable {image : Image} {index place : Nat} {entry : Entry}

/-- A write that does not fit the file is refused and changes nothing. -/
theorem result_writeBytes_of_overrun (chunk : Bytes) (mounted : image.Mounts index entry)
    (busy : image.cursor = some ⟨index, place.toUInt32⟩) (inside : place ≤ entry.size.toNat)
    (short : chunk.length < UInt32.size) (overruns : entry.size.toNat < place + chunk.length) :
    ∃ cause, (Device.writeBytes chunk : Command Image).result image =
      (Outcome.refuse cause, image) := by
  have finishLe := mounted.holds.2
  have addressable := mounted.addressable
  have covers := covers_place chunk (by omega) inside short
  rw [decide_eq_false (by omega)] at covers
  have session : ∃ cause, image.writeSession chunk = Outcome.refuse cause := by
    unfold writeSession
    simp only [busy, mounted.filed, Outcome.ofExcept_ok, Outcome.bind_ok,
      sum32_place (by omega : entry.base.value.toNat + place < UInt32.size), covers]
    exact ⟨_, rfl⟩
  obtain ⟨cause, refused⟩ := session
  refine ⟨cause, ?_⟩
  show (replacing fun image => image.writeSession chunk).result image = _
  rw [result_replacing, refused]
  rfl

end Image

namespace WriteSession

variable {δ : Type} [Device δ]

theorem writeAll_of_reachedFrom (session : WriteSession) (chunks : List Bytes) (device : δ)
    (all : reachedFrom chunks device = chunks) :
    ∃ finished, ((session.writeAll chunks).result device).1 = .ok finished := by
  induction chunks generalizing session device with
  | nil => exact ⟨session, rfl⟩
  | cons chunk rest inductionHypothesis =>
      unfold reachedFrom at all
      rw [result_writeAll_cons]
      generalize (Device.writeBytes chunk : Command δ).result device = stepped at all ⊢
      obtain ⟨outcome, after⟩ := stepped
      cases outcome with
      | ok done => exact inductionHypothesis _ after (List.cons.inj all).2
      | error stop => exact absurd all (by simp)

variable [Backed δ]

/-- A session all of whose bytes are written ends as its close does. -/
theorem close_of_reached (device : δ) {index : Nat} {entry : Entry} {offset : UInt32}
    {chunks : List Bytes} (mounted : (Backed.image device).Mounts index entry)
    (fits : offset.toNat + chunks.flatten.length ≤ entry.size.toNat) (nonempty : chunks ≠ [])
    (all : reached index offset chunks device = chunks) :
    ∃ busy, (run index offset chunks).result device =
        (Device.closeFile : Command δ).result busy ∧
      (Backed.image busy).sessionOpen = true := by
  rcases openFile_image device offset mounted (by omega) with
    ⟨openDevice, opened, image⟩ | ⟨cause, notOpened, -⟩
  · have allFrom : reachedFrom chunks openDevice = chunks := by
      simpa only [reached, opened] using all
    have cursor : (Backed.image openDevice).cursor = some ⟨index, offset.toNat.toUInt32⟩ := by
      rw [image]
      exact congrArg (fun place => some (⟨index, place⟩ : Cursor)) UInt32.ofNat_toNat.symm
    have wrote := (writeAll_image (⟨index, 0⟩ : WriteSession) chunks openDevice offset.toNat
      (by rw [image]; exact mounted.written entry 0 [] _) cursor fits).1
    obtain ⟨finished, done⟩ := writeAll_of_reachedFrom ⟨index, 0⟩ chunks openDevice allFrom
    refine ⟨(((⟨index, 0⟩ : WriteSession).writeAll chunks).result openDevice).2, ?_, ?_⟩
    · rw [result_run_of_open opened]
      generalize ((⟨index, 0⟩ : WriteSession).writeAll chunks).result openDevice = ended
        at done ⊢
      obtain ⟨outcome, after⟩ := ended
      simp only at done
      subst done
      rfl
    · rw [wrote]
      rfl
  · rw [reached_of_refused notOpened] at all
    exact absurd all.symm nonempty

/-- On an image, a session all of whose bytes are written succeeds. -/
theorem ok_of_reached {image : Image} {index : Nat} {entry : Entry} {offset : UInt32}
    {chunks : List Bytes} (mounted : image.Mounts index entry)
    (fits : offset.toNat + chunks.flatten.length ≤ entry.size.toNat) (nonempty : chunks ≠ [])
    (all : reached index offset chunks image = chunks) :
    ((run index offset chunks).result image).1 = .ok () := by
  obtain ⟨busy, closes, sessionOpen⟩ := close_of_reached image mounted fits nonempty all
  obtain ⟨cursor, cursorEq⟩ := Option.isSome_iff_exists.mp sessionOpen
  have busyCursor : busy.cursor = some cursor := cursorEq
  rw [closes, Image.result_closeFile busyCursor]

/-- A session of one byte string that does not fit its file is refused, and
changes at most the session of the image. -/
theorem run_image_of_overrun (device : δ) {index : Nat} {entry : Entry} (chunk : Bytes)
    (mounted : (Backed.image device).Mounts index entry) (short : chunk.length < UInt32.size)
    (overruns : entry.size.toNat < chunk.length) :
    (∃ cursor, Backed.image ((run index 0 [chunk]).result device).2 =
        { Backed.image device with cursor }) ∧
      (∃ cause, ((run index 0 [chunk]).result device).1 = Outcome.refuse cause) ∧
      reached index 0 [chunk] device = [] := by
  rcases openFile_image device 0 mounted (Nat.zero_le _) with
    ⟨openDevice, opened, image⟩ | ⟨cause, refused, image⟩
  · have cursor : (Backed.image openDevice).cursor = some ⟨index, Nat.toUInt32 0⟩ := by
      rw [image]
      rfl
    have wrote : ∃ cause, ((Device.writeBytes chunk : Command δ).result openDevice).1 =
          Outcome.refuse cause ∧
        Backed.image ((Device.writeBytes chunk : Command δ).result openDevice).2 =
          Backed.image openDevice := by
      have openMounted : (Backed.image openDevice).Mounts index entry := by
        rw [image]
        exact mounted.written entry 0 [] _
      obtain ⟨cause, inner⟩ := Image.result_writeBytes_of_overrun chunk openMounted cursor
        (Nat.zero_le _) short (by omega)
      rcases Backed.passes_writeBytes chunk openDevice with ⟨outcome, after⟩ | refused
      · rw [inner] at outcome after
        exact ⟨cause, outcome, after⟩
      · exact refused
    have reachedEq : reached index 0 [chunk] device = reachedFrom [chunk] openDevice := by
      simp only [reached, opened]
    rw [result_run_of_open opened, result_writeAll_cons, reachedEq]
    unfold reachedFrom
    generalize (Device.writeBytes chunk : Command δ).result openDevice = stepped at wrote ⊢
    obtain ⟨outcome, after⟩ := stepped
    obtain ⟨cause, refused, left⟩ := wrote
    simp only at refused left
    subst refused
    refine ⟨?_, ⟨cause, rfl⟩, rfl⟩
    show ∃ cursor, Backed.image ((Device.closeFile : Command δ).result after).2 = _
    rcases closeFile_image after (by rw [left]; exact cursor) with ⟨-, closed⟩ | ⟨-, -, closed⟩
    · exact ⟨none, by rw [closed, left, image]⟩
    · exact ⟨some ⟨index, 0⟩, by rw [closed, left, image]⟩
  · rw [result_run_of_refused refused, reached_of_refused refused]
    exact ⟨⟨(Backed.image device).cursor, image⟩, ⟨cause, rfl⟩, rfl⟩

end WriteSession

end CodeCapsules.Flash

namespace CodeCapsules.Store

open Flash (Backed Device Image WriteSession)

variable {δ : Type} [Device δ]

/-- Clearing the store is refused although the mark of the erase is written. -/
def Torn (store : Store δ) : Prop :=
  (∃ stop, (clear.result store).1 = .error stop) ∧
    WriteSession.reached store.container.index 0 [eraseMark] store.device = [eraseMark]

variable [Backed δ] {device : δ} {container : Container}

theorem contains_of_mark {cursor : Option Flash.Cursor}
    (mounted : (Backed.image device).Mounts container.index container.entry)
    (room : eraseMark.length ≤ container.capacity) :
    Contains (((Backed.image device).written container.entry 0 eraseMark cursor).region
      container.entry) container.firstPlace [] := by
  have size : ((Backed.image device).region container.entry).length = container.capacity :=
    Flash.Image.length_region mounted.holds
  rw [Flash.Image.region_written mounted.holds (by unfold Container.capacity at room; omega)]
  exact contains_splice_eraseMark container.firstPlace_le_one (by rw [size]; exact room)

/-- How an erase can end: it succeeds and the container is empty, it is refused
before its mark is written, or only its close is refused. -/
theorem erase_cases (mounted : (Backed.image device).Mounts container.index container.entry) :
    (((erase container).result device).1 = .ok () ∧
        Contains ((Backed.image ((erase container).result device).2).region container.entry)
          container.firstPlace []) ∨
      ∃ stop, ((erase container).result device).1 = .error stop ∧
        ((WriteSession.reached container.index 0 [eraseMark] device = [] ∧
            ∃ cursor, Backed.image ((erase container).result device).2 =
              { Backed.image device with cursor }) ∨
          (WriteSession.reached container.index 0 [eraseMark] device = [eraseMark] ∧
            (Backed.image ((erase container).result device).2).sessionOpen = true ∧
            Contains ((Backed.image ((erase container).result device).2).region container.entry)
              container.firstPlace [])) := by
  have began := WriteSession.reached_begins container.index 0 [eraseMark] device
  rw [result_erase]
  by_cases room : eraseMark.length ≤ container.capacity
  · have fits : (0 : UInt32).toNat + [eraseMark].flatten.length ≤ container.entry.size.toNat := by
      unfold Container.capacity at room
      simpa using room
    obtain ⟨cursor, left, ended⟩ := WriteSession.run_image device [eraseMark] mounted fits
    rcases ended with ⟨accepted, all, -⟩ | ⟨cause, refused⟩
    · left
      rw [all] at left
      rw [accepted, left]
      exact ⟨rfl, contains_of_mark mounted room⟩
    · right
      refine ⟨.refused (.flash cause), by rw [refused]; rfl, ?_⟩
      -- Of one byte string, nothing or all of it has reached the image.
      rcases List.prefix_cons_iff.mp began with none | ⟨rest, all, restNil⟩
      · left
        rw [none] at left
        exact ⟨none, cursor, left⟩
      · right
        rw [List.prefix_nil.mp restNil] at all
        rw [all] at left
        obtain ⟨busy, closes, sessionOpen⟩ :=
          WriteSession.close_of_reached device mounted fits (by simp) all
        refine ⟨all, ?_, by rw [left]; exact contains_of_mark mounted room⟩
        obtain ⟨busyCursor, busyEq⟩ := Option.isSome_iff_exists.mp sessionOpen
        rw [closes] at refused ⊢
        rcases WriteSession.closeFile_image busy busyEq with ⟨closed, -⟩ | ⟨-, -, unchanged⟩
        · rw [closed] at refused
          contradiction
        · rw [unchanged]
          exact sessionOpen
  · right
    obtain ⟨untouched, ⟨cause, refused⟩, none⟩ := WriteSession.run_image_of_overrun device
      eraseMark mounted (by decide) (by unfold Container.capacity at room; omega)
    exact ⟨.refused (.flash cause), by rw [refused]; rfl, .inl ⟨none, untouched⟩⟩

theorem not_torn_image {store : Store Image}
    (mounted : store.device.Mounts store.container.index store.container.entry) :
    ¬ Torn store := by
  rintro ⟨⟨stop, refused⟩, all⟩
  rw [clear_eq_error, result_erase] at refused
  by_cases room : eraseMark.length ≤ store.container.capacity
  · rw [WriteSession.ok_of_reached mounted
      (by unfold Container.capacity at room; simpa using room) (by simp) all] at refused
    contradiction
  · obtain ⟨-, -, none⟩ := WriteSession.run_image_of_overrun store.device
      eraseMark mounted (by decide) (by unfold Container.capacity at room; omega)
    rw [none] at all
    contradiction

end CodeCapsules.Store
