import CodeCapsules.Flash.FaultyDevice
import CodeCapsules.Flash.WriteSession
import CodeCapsules.Proofs.Region

/-!
Contract: what a write session leaves in the image behind a device.

Owns:
- `Mounts`, a file of an image that can be addressed;
- opening, writing and closing an image, each with its exact result;
- `Backed`, devices that stand before an image and may refuse a call without
  passing it on;
- `reached`, the byte strings of a session that got through to the image.

Main statement: whatever a device refuses, a session changes nothing of the
image behind it but the bytes from its offset on, which become the byte strings
that got through; and it succeeds only if all of them did.
-/

namespace CodeCapsules.Flash

/-- The file `index` of the image, which lies inside addressable memory. -/
structure Image.Mounts (image : Image) (index : Nat) (entry : Entry) : Prop where
  filed : image.file index = .ok entry
  holds : image.Holds entry
  addressable : image.memoryEnd < UInt32.size

namespace Image

/-- A place in a file is a number of 32 bits. -/
theorem toNat_place (entry : Entry) {place : Nat} (inside : place ≤ entry.size.toNat) :
    place.toUInt32.toNat = place :=
  toNat_toUInt32 (Nat.lt_of_le_of_lt inside entry.size.toNat_lt)

/-- The image with a chunk written over a file, and the session where it then
stands. -/
def written (image : Image) (entry : Entry) (place : Nat) (chunk : Bytes)
    (cursor : Option Cursor) : Image :=
  { image with
    memory := Bytes.overwrite image.memory (image.regionStart entry + place) chunk
    cursor }

section Written

variable {image : Image} {index place : Nat} {entry : Entry} {chunk : Bytes}

theorem written_memoryEnd (cursor : Option Cursor) :
    (image.written entry place chunk cursor).memoryEnd = image.memoryEnd := by
  simp [written, memoryEnd]

theorem Mounts.written (mounted : image.Mounts index entry) (other : Entry) (place : Nat)
    (chunk : Bytes) (cursor : Option Cursor) :
    (image.written other place chunk cursor).Mounts index entry where
  filed := mounted.filed
  holds := by
    have holds := mounted.holds
    unfold Holds at holds ⊢
    rw [written_memoryEnd]
    exact holds
  addressable := by
    rw [written_memoryEnd]
    exact mounted.addressable

theorem written_nil (image : Image) (entry : Entry) (place : Nat) :
    image.written entry place [] image.cursor = image := rfl

/-- Two chunks written one behind the other are one. -/
theorem written_written (next : Bytes) (middle last : Option Cursor) :
    (image.written entry place chunk middle).written entry (place + chunk.length) next last =
      image.written entry place (chunk ++ next) last := by
  unfold written
  simp only [regionStart]
  rw [← Bytes.overwrite_overwrite, Nat.add_assoc]

/-- Writing into a file splices its bytes. -/
theorem region_written (holds : image.Holds entry)
    (fits : place + chunk.length ≤ entry.size.toNat) (cursor : Option Cursor) :
    (image.written entry place chunk cursor).region entry =
      Bytes.splice (image.region entry) place chunk :=
  region_overwrite holds fits cursor

end Written

/-! ## The image as a device -/

section Commands

variable {image : Image} {index place : Nat} {entry : Entry} {chunk : Bytes}

theorem result_openFile_busy {cursor : Cursor} (busy : image.cursor = some cursor) (index : Nat)
    (offset : UInt32) :
    (Device.openFile index offset : Command Image).result image =
      (Outcome.refuse (.sessionAlreadyOpen cursor.fileIndex), image) := by
  show (replacing fun image => Outcome.ofExcept (image.openSession index offset)).result image = _
  unfold Operation.result replacing openSession
  simp only [busy]
  rfl

theorem result_openFile_filed (filed : image.file index = .ok entry) (idle : image.cursor = none)
    {offset : UInt32} (inside : offset.toNat ≤ entry.size.toNat) :
    (Device.openFile index offset : Command Image).result image =
      (.ok (), { image with cursor := some ⟨index, offset⟩ }) := by
  have opened : image.openSession index offset =
      .ok { image with cursor := some ⟨index, offset⟩ } := by
    unfold openSession
    simp only [idle, filed]
    show (if offset ≤ entry.size then _ else _) = _
    rw [if_pos (UInt32.le_iff_toNat_le.mpr inside)]
    rfl
  show (replacing fun image => Outcome.ofExcept (image.openSession index offset)).result image = _
  unfold Operation.result replacing
  simp only [opened]
  rfl

theorem result_openFile (mounted : image.Mounts index entry) (idle : image.cursor = none)
    {offset : UInt32} (inside : offset.toNat ≤ entry.size.toNat) :
    (Device.openFile index offset : Command Image).result image =
      (.ok (), { image with cursor := some ⟨index, offset⟩ }) :=
  result_openFile_filed mounted.filed idle inside

/-- A chunk from a place in the file on is covered if it ends in the file. -/
theorem covers_place (chunk : Bytes)
    (finishes : entry.base.value.toNat + entry.size.toNat < UInt32.size)
    (inside : place ≤ entry.size.toNat) (short : chunk.length < UInt32.size) :
    (entry.covers ⟨entry.base.value + place.toUInt32⟩ chunk.length.toUInt32 :
      Outcome Error Bool) = .ok (decide (place + chunk.length ≤ entry.size.toNat)) := by
  have sizeEq : UInt32.size = 2 ^ 32 := rfl
  have address := toNat_add_place entry.base.value place (by omega)
  have baseLe : entry.base.value ≤ entry.base.value + place.toUInt32 := by
    rw [UInt32.le_iff_toNat_le, address]
    omega
  have finish : (entry.base.value + entry.size).toNat =
      entry.base.value.toNat + entry.size.toNat := by
    rw [UInt32.toNat_add, Nat.mod_eq_of_lt (by omega)]
  unfold Entry.covers Entry.finish
  rw [if_pos baseLe, sum32_eq_ok (by omega)]
  refine congrArg Except.ok (decide_eq_decide.mpr ?_)
  rw [address, finish, toNat_toUInt32 short]
  omega

/-- A write that fits the file succeeds unless it starts behind memory. That
can only be a write of nothing, at the end of a file that ends with memory. -/
theorem result_writeBytes (chunk : Bytes) (mounted : image.Mounts index entry)
    (busy : image.cursor = some ⟨index, place.toUInt32⟩)
    (fits : place + chunk.length ≤ entry.size.toNat) :
    (Device.writeBytes chunk : Command Image).result image =
      if entry.base.value.toNat + place < image.memoryEnd then
        (.ok (), image.written entry place chunk
          (some ⟨index, (place + chunk.length).toUInt32⟩))
      else
        (Outcome.refuse (.addressOutOfRange ⟨entry.base.value + place.toUInt32⟩), image) := by
  have startLe := mounted.holds.1
  have finishLe := mounted.holds.2
  have addressable := mounted.addressable
  have sizeEq : UInt32.size = 2 ^ 32 := rfl
  have covers := covers_place chunk
    (by omega : entry.base.value.toNat + entry.size.toNat < UInt32.size)
    (by omega : place ≤ entry.size.toNat) (by omega)
  rw [decide_eq_true fits] at covers
  have address := toNat_add_place entry.base.value place (by omega)
  have placeEq : place.toUInt32.toNat = place := toNat_toUInt32 (by omega)
  have session : image.writeSession chunk =
      if entry.base.value.toNat + place < image.memoryEnd then
        .ok (image.written entry place chunk (some ⟨index, (place + chunk.length).toUInt32⟩))
      else Outcome.refuse (.addressOutOfRange ⟨entry.base.value + place.toUInt32⟩) := by
    unfold writeSession
    simp only [busy, mounted.filed, Outcome.ofExcept_ok, Outcome.bind_ok,
      sum32_place (by omega : entry.base.value.toNat + place < UInt32.size), covers, if_true]
    by_cases inside : entry.base.value.toNat + place < image.memoryEnd
    · have room : entry.base.value.toNat - image.origin.toNat + place + chunk.length ≤
          image.memory.size := by
        unfold memoryEnd at finishLe
        omega
      rw [if_pos inside, indexOf_place _ _ startLe inside addressable]
      simp only [Outcome.ofExcept_ok, Outcome.bind_ok]
      rw [if_pos room, sum32_place (by omega)]
      show Except.ok _ = Except.ok _
      rw [written, regionStart, ← UInt32.ofNat_add]
    · rw [if_neg inside, indexOf_memoryEnd (by simp only [address]; omega)]
      rfl
  show (replacing fun image => image.writeSession chunk).result image = _
  unfold Operation.result replacing
  simp only [session]
  by_cases inside : entry.base.value.toNat + place < image.memoryEnd
  · rw [if_pos inside, if_pos inside]
  · rw [if_neg inside, if_neg inside]
    rfl

theorem result_closeFile {cursor : Cursor} (busy : image.cursor = some cursor) :
    (Device.closeFile : Command Image).result image = (.ok (), { image with cursor := none }) := by
  show closeSession.result image = _
  unfold Operation.result closeSession
  simp only [busy]
  rfl

end Commands

end Image

/-! ## Sessions on any device -/

namespace WriteSession

variable {δ : Type} [Device δ]

theorem result_start (index : Nat) (offset : UInt32) (device : δ) :
    (start index offset : Operation δ Error WriteSession).result device =
      (((Device.openFile index offset : Command δ).result device).1.map fun _ => ⟨index, 0⟩,
        ((Device.openFile index offset : Command δ).result device).2) := by
  unfold start
  rw [Operation.result_bind]
  rcases (Device.openFile index offset : Command δ).result device with ⟨outcome, after⟩
  cases outcome with
  | ok done => rfl
  | error stop => rfl

theorem result_close (session : WriteSession) (device : δ) :
    (session.close : Operation δ Error Unit).result device =
      (Device.closeFile : Command δ).result device := by
  unfold close
  rw [Operation.result_bind, Operation.result_report, Operation.continueWith_ok]

theorem result_abandon (session : WriteSession) (device : δ) :
    ((session.abandon : Operation δ Error Unit).result device).2 =
      ((Device.closeFile : Command δ).result device).2 := by
  unfold Operation.result abandon
  split
  · rename_i closed
    rw [closed]
  · rfl

/-- A session that could not be opened is no session. -/
theorem result_run_of_refused {index : Nat} {offset : UInt32} {chunks : List Bytes} {device : δ}
    {stop : Stop Error}
    (refused : ((Device.openFile index offset : Command δ).result device).1 = .error stop) :
    (run index offset chunks : Operation δ Error Unit).result device =
      (.error stop, ((Device.openFile index offset : Command δ).result device).2) := by
  unfold run
  rw [Operation.result_bind, result_start, refused]
  rfl

/-- An open session writes, and is closed in either case. -/
theorem result_run_of_open {index : Nat} {offset : UInt32} {chunks : List Bytes}
    {device opened : δ}
    (accepted : (Device.openFile index offset : Command δ).result device = (.ok (), opened)) :
    (run index offset chunks : Operation δ Error Unit).result device =
      match ((⟨index, 0⟩ : WriteSession).writeAll chunks).result opened with
      | (.ok _, after) => (Device.closeFile : Command δ).result after
      | (.error stop, after) =>
          (.error stop, ((Device.closeFile : Command δ).result after).2) := by
  unfold run
  rw [Operation.result_bind, result_start, accepted]
  show Operation.continueWith _ (.ok (⟨index, 0⟩ : WriteSession), opened) = _
  rw [Operation.continueWith_ok, Operation.result_bind, Operation.result_orCleanUp]
  rcases ((⟨index, 0⟩ : WriteSession).writeAll chunks).result opened with ⟨outcome, after⟩
  cases outcome with
  | ok session => rw [Operation.continueWith_ok, result_close]
  | error stop => rw [Operation.continueWith_error, result_abandon]

theorem result_writeAll_cons (session : WriteSession) (chunk : Bytes) (rest : List Bytes)
    (device : δ) :
    (session.writeAll (chunk :: rest)).result device =
      match (Device.writeBytes chunk : Command δ).result device with
      | (.ok _, after) =>
          (WriteSession.writeAll { session with written := session.written + chunk.length }
            rest).result after
      | (.error stop, after) => (.error stop, after) := by
  show (session.write chunk >>= fun session => session.writeAll rest).result device = _
  unfold write
  rw [Operation.result_bind, Operation.result_bind]
  rcases (Device.writeBytes chunk : Command δ).result device with ⟨outcome, after⟩
  cases outcome with
  | ok done => rfl
  | error stop => rfl

/-- The byte strings of an open session that the device accepts: those before
the first that it does not. -/
def reachedFrom : List Bytes → δ → List Bytes
  | [], _ => []
  | chunk :: rest, device =>
      match (Device.writeBytes chunk : Command δ).result device with
      | (.ok _, after) => chunk :: reachedFrom rest after
      | (.error _, _) => []

/-- The byte strings of a whole session that the device accepts. -/
def reached (index : Nat) (offset : UInt32) (chunks : List Bytes) (device : δ) : List Bytes :=
  match (Device.openFile index offset : Command δ).result device with
  | (.ok _, opened) => reachedFrom chunks opened
  | (.error _, _) => []

/-- A session that was not opened reached nothing. -/
theorem reached_of_refused {index : Nat} {offset : UInt32} {chunks : List Bytes} {device : δ}
    {stop : Stop Error}
    (refused : ((Device.openFile index offset : Command δ).result device).1 = .error stop) :
    reached index offset chunks device = [] := by
  unfold reached
  generalize (Device.openFile index offset : Command δ).result device = opened at refused ⊢
  obtain ⟨outcome, after⟩ := opened
  simp only at refused
  rw [refused]

/-- What reaches the image is the beginning of what was sent. -/
theorem reachedFrom_begins (chunks : List Bytes) (device : δ) :
    reachedFrom chunks device <+: chunks := by
  induction chunks generalizing device with
  | nil => exact List.prefix_refl _
  | cons chunk rest inductionHypothesis =>
      unfold reachedFrom
      split
      · rename_i after _
        exact List.cons_prefix_cons.mpr ⟨rfl, inductionHypothesis after⟩
      · exact List.nil_prefix

theorem reached_begins (index : Nat) (offset : UInt32) (chunks : List Bytes) (device : δ) :
    reached index offset chunks device <+: chunks := by
  unfold reached
  split
  · exact reachedFrom_begins chunks _
  · exact List.nil_prefix

/-! ## Sessions on an image -/

/-- Byte strings that are written one behind the other from `address` on, each
of which starts before `finish`. -/
def Lands (finish : Nat) : Nat → List Bytes → Prop
  | _, [] => True
  | address, chunk :: rest => address < finish ∧ Lands finish (address + chunk.length) rest

section OnImage

variable {image : Image} {index place : Nat} {entry : Entry}

/-- An open session writes all byte strings that start inside memory. -/
theorem result_writeAll_of_lands (session : WriteSession) (chunks : List Bytes) (image : Image)
    (place : Nat) (mounted : image.Mounts index entry)
    (busy : image.cursor = some ⟨index, place.toUInt32⟩)
    (fits : place + chunks.flatten.length ≤ entry.size.toNat)
    (lands : Lands image.memoryEnd (entry.base.value.toNat + place) chunks) :
    ∃ finished, (session.writeAll chunks).result image =
      (.ok finished, image.written entry place chunks.flatten
        (some ⟨index, (place + chunks.flatten.length).toUInt32⟩)) := by
  induction chunks generalizing session image place with
  | nil =>
      refine ⟨session, ?_⟩
      rw [List.flatten_nil, List.length_nil, Nat.add_zero, ← busy, Image.written_nil]
      rfl
  | cons chunk rest inductionHypothesis =>
      rw [List.flatten_cons, List.length_append] at fits
      obtain ⟨inside, restLands⟩ := lands
      rw [result_writeAll_cons, Image.result_writeBytes chunk mounted busy (by omega),
        if_pos inside]
      obtain ⟨finished, wrote⟩ := inductionHypothesis
        { session with written := session.written + chunk.length }
        (image.written entry place chunk (some ⟨index, (place + chunk.length).toUInt32⟩))
        (place + chunk.length) (mounted.written _ _ _ _) rfl (by omega)
        (by rw [Image.written_memoryEnd, ← Nat.add_assoc]; exact restLands)
      refine ⟨finished, ?_⟩
      simp only [wrote, Image.written_written, List.flatten_cons, List.length_append,
        Nat.add_assoc]

/-- A whole session on an idle image writes all byte strings that start inside
memory. -/
theorem result_run_of_lands {chunks : List Bytes} (mounted : image.Mounts index entry)
    (idle : image.cursor = none) (fits : place + chunks.flatten.length ≤ entry.size.toNat)
    (lands : Lands image.memoryEnd (entry.base.value.toNat + place) chunks) :
    (run index place.toUInt32 chunks).result image =
      (.ok (), image.written entry place chunks.flatten none) := by
  have placeEq : place.toUInt32.toNat = place := Image.toNat_place entry (by omega)
  obtain ⟨finished, wrote⟩ := result_writeAll_of_lands ⟨index, 0⟩ chunks
    { image with cursor := some ⟨index, place.toUInt32⟩ } place
    (mounted.written entry 0 [] _) rfl fits lands
  rw [result_run_of_open (Image.result_openFile mounted idle (by omega)), wrote]
  exact Image.result_closeFile rfl

/-- A chunk that reaches the end of memory is written, but nothing can be
written behind it, not even no bytes: the session fails there. -/
theorem result_run_of_stray {chunk : Bytes} (mounted : image.Mounts index entry)
    (idle : image.cursor = none) (nonempty : chunk ≠ [])
    (fits : place + chunk.length ≤ entry.size.toNat)
    (atEnd : entry.base.value.toNat + (place + chunk.length) = image.memoryEnd) :
    (run index place.toUInt32 [chunk, []]).result image =
      (Outcome.refuse (.addressOutOfRange
          ⟨entry.base.value + (place + chunk.length).toUInt32⟩),
        image.written entry place chunk none) := by
  have placeEq : place.toUInt32.toNat = place := Image.toNat_place entry (by omega)
  have chunkPositive := List.length_pos_iff.mpr nonempty
  let opened : Image := { image with cursor := some ⟨index, place.toUInt32⟩ }
  let wrote : Image :=
    image.written entry place chunk (some ⟨index, (place + chunk.length).toUInt32⟩)
  have openedMounted : opened.Mounts index entry := mounted.written entry 0 [] _
  have wroteMounted : wrote.Mounts index entry := mounted.written _ _ _ _
  have wroteEnd : wrote.memoryEnd = image.memoryEnd := Image.written_memoryEnd _
  have opening : (Device.openFile index place.toUInt32 : Command Image).result image =
      (.ok (), opened) := Image.result_openFile mounted idle (by omega)
  have first : (Device.writeBytes chunk : Command Image).result opened = (.ok (), wrote) := by
    have written := Image.result_writeBytes chunk openedMounted rfl fits
    rw [if_pos (by show _ < image.memoryEnd; omega)] at written
    exact written
  have second : (Device.writeBytes [] : Command Image).result wrote =
      (Outcome.refuse (.addressOutOfRange
        ⟨entry.base.value + (place + chunk.length).toUInt32⟩), wrote) := by
    have refused := Image.result_writeBytes [] wroteMounted rfl fits
    rw [if_neg (by rw [wroteEnd]; omega)] at refused
    exact refused
  have closing : (Device.closeFile : Command Image).result wrote =
      (.ok (), { wrote with cursor := none }) := Image.result_closeFile rfl
  rw [result_run_of_open opening, result_writeAll_cons, first]
  simp only
  rw [result_writeAll_cons, second]
  show (_, ((Device.closeFile : Command Image).result wrote).2) = _
  rw [closing]
  rfl

end OnImage

end WriteSession

/-! ## Devices before an image -/

/-- What a device makes of a command: it passes the command on to the image
behind it, or it refuses and leaves the image alone. -/
def Passes {δ : Type} (image : δ → Image) (command : Command δ) (inner : Command Image)
    (device : δ) : Prop :=
  ((command.result device).1 = (inner.result (image device)).1 ∧
      image (command.result device).2 = (inner.result (image device)).2) ∨
    ∃ cause, (command.result device).1 = Outcome.refuse cause ∧
      image (command.result device).2 = image device

/-- A device with an image behind it. -/
class Backed (δ : Type) [Device δ] where
  image : δ → Image
  passes_openFile : ∀ (index : Nat) (offset : UInt32) (device : δ),
    Passes image (Device.openFile index offset) (Device.openFile index offset) device
  passes_writeBytes : ∀ (chunk : Bytes) (device : δ),
    Passes image (Device.writeBytes chunk) (Device.writeBytes chunk) device
  passes_closeFile : ∀ device : δ, Passes image Device.closeFile Device.closeFile device

/-- An image stands before itself. -/
instance : Backed Image where
  image := id
  passes_openFile _ _ _ := .inl ⟨rfl, rfl⟩
  passes_writeBytes _ _ := .inl ⟨rfl, rfl⟩
  passes_closeFile _ := .inl ⟨rfl, rfl⟩

theorem FaultyDevice.passes_passing (refused : Bool) (call : Call) (command : Command Image)
    (device : FaultyDevice) :
    Passes FaultyDevice.image (passing refused call command) command device := by
  unfold passing
  cases refused with
  | true => exact .inr ⟨_, rfl, rfl⟩
  | false => exact .inl ⟨rfl, rfl⟩

instance : Backed FaultyDevice where
  image := FaultyDevice.image
  passes_openFile _ _ device :=
    FaultyDevice.passes_passing _ _ _ { device with opened := device.opened + 1 }
  passes_writeBytes _ device :=
    FaultyDevice.passes_passing _ _ _ { device with written := device.written + 1 }
  passes_closeFile device :=
    FaultyDevice.passes_passing _ _ _ { device with closed := device.closed + 1 }

namespace WriteSession

variable {δ : Type} [Device δ] [Backed δ]

/-- A chunk that the file has room for is written to the image, or refused
with the image as it was. -/
theorem writeBytes_image (chunk : Bytes) {device : δ} {index place : Nat} {entry : Entry}
    (mounted : (Backed.image device).Mounts index entry)
    (busy : (Backed.image device).cursor = some ⟨index, place.toUInt32⟩)
    (fits : place + chunk.length ≤ entry.size.toNat) :
    (((Device.writeBytes chunk : Command δ).result device).1 = .ok () ∧
        Backed.image ((Device.writeBytes chunk : Command δ).result device).2 =
          (Backed.image device).written entry place chunk
            (some ⟨index, (place + chunk.length).toUInt32⟩)) ∨
      ∃ cause, ((Device.writeBytes chunk : Command δ).result device).1 = Outcome.refuse cause ∧
        Backed.image ((Device.writeBytes chunk : Command δ).result device).2 =
          Backed.image device := by
  have inner := Image.result_writeBytes chunk mounted busy fits
  rcases Backed.passes_writeBytes chunk device with ⟨outcome, image⟩ | refused
  · rw [inner] at outcome image
    by_cases inside : entry.base.value.toNat + place < (Backed.image device).memoryEnd
    · rw [if_pos inside] at outcome image
      exact .inl ⟨outcome, image⟩
    · rw [if_neg inside] at outcome image
      exact .inr ⟨_, outcome, image⟩
  · exact .inr refused

/-- An open session leaves in the image exactly the byte strings that reached
it. It goes on to the end only if all of them did, and never halts. -/
theorem writeAll_image (session : WriteSession) (chunks : List Bytes) (device : δ)
    {index : Nat} (place : Nat) {entry : Entry}
    (mounted : (Backed.image device).Mounts index entry)
    (busy : (Backed.image device).cursor = some ⟨index, place.toUInt32⟩)
    (fits : place + chunks.flatten.length ≤ entry.size.toNat) :
    Backed.image ((session.writeAll chunks).result device).2 =
        (Backed.image device).written entry place (reachedFrom chunks device).flatten
          (some ⟨index, (place + (reachedFrom chunks device).flatten.length).toUInt32⟩) ∧
      ((∃ finished, ((session.writeAll chunks).result device).1 = .ok finished ∧
          reachedFrom chunks device = chunks) ∨
        ∃ cause, ((session.writeAll chunks).result device).1 = Outcome.refuse cause) := by
  induction chunks generalizing session device place with
  | nil =>
      refine ⟨?_, .inl ⟨session, rfl, rfl⟩⟩
      show Backed.image device = _
      simp only [reachedFrom, List.flatten_nil, List.length_nil, Nat.add_zero, ← busy]
      rfl
  | cons chunk rest inductionHypothesis =>
      rw [List.flatten_cons, List.length_append] at fits
      have step := writeBytes_image chunk mounted busy (by omega)
      rw [result_writeAll_cons]
      unfold reachedFrom
      generalize (Device.writeBytes chunk : Command δ).result device = stepped at step ⊢
      obtain ⟨outcome, after⟩ := stepped
      rcases step with ⟨accepted, image⟩ | ⟨cause, refused, image⟩
      · simp only at accepted image
        subst accepted
        have behind := inductionHypothesis
          { session with written := session.written + chunk.length } after
          (place + chunk.length)
          (by rw [image]; exact mounted.written _ _ _ _) (by rw [image]; rfl) (by omega)
        rw [image, Image.written_written] at behind
        simp only [List.flatten_cons, List.length_append, List.cons.injEq, true_and]
        rw [← Nat.add_assoc]
        exact behind
      · simp only at refused image
        subst refused
        refine ⟨?_, .inr ⟨cause, rfl⟩⟩
        show Backed.image after = (Backed.image device).written entry place []
          (some ⟨index, place.toUInt32⟩)
        rw [image, ← busy]
        rfl

/-- Opening a file for an offset inside it reaches the image, or is refused
with the image as it was. -/
theorem openFile_image (device : δ) {index : Nat} {entry : Entry} (offset : UInt32)
    (mounted : (Backed.image device).Mounts index entry)
    (inside : offset.toNat ≤ entry.size.toNat) :
    (∃ opened, (Device.openFile index offset : Command δ).result device = (.ok (), opened) ∧
        Backed.image opened = { Backed.image device with cursor := some ⟨index, offset⟩ }) ∨
      ∃ cause, ((Device.openFile index offset : Command δ).result device).1 =
          Outcome.refuse cause ∧
        Backed.image ((Device.openFile index offset : Command δ).result device).2 =
          Backed.image device := by
  rcases Backed.passes_openFile index offset device with ⟨outcome, image⟩ | refused
  · cases cursor : (Backed.image device).cursor with
    | none =>
        rw [Image.result_openFile mounted cursor inside] at outcome image
        exact .inl ⟨_, Prod.ext outcome rfl, image⟩
    | some open_ =>
        rw [Image.result_openFile_busy cursor] at outcome image
        exact .inr ⟨_, outcome, image⟩
  · exact .inr refused

/-- Closing ends the open session of the image, or is refused with the image as
it was. -/
theorem closeFile_image (device : δ) {cursor : Cursor}
    (busy : (Backed.image device).cursor = some cursor) :
    (((Device.closeFile : Command δ).result device).1 = .ok () ∧
        Backed.image ((Device.closeFile : Command δ).result device).2 =
          { Backed.image device with cursor := none }) ∨
      ∃ cause, ((Device.closeFile : Command δ).result device).1 = Outcome.refuse cause ∧
        Backed.image ((Device.closeFile : Command δ).result device).2 = Backed.image device := by
  rcases Backed.passes_closeFile device with ⟨outcome, image⟩ | refused
  · rw [Image.result_closeFile busy] at outcome image
    exact .inl ⟨outcome, image⟩
  · exact .inr refused

/-- What a whole session leaves behind: the image with the byte strings that
reached it. The session succeeds only if all of them did, and then it is
closed. -/
theorem run_image (device : δ) {index : Nat} {entry : Entry} {offset : UInt32}
    (chunks : List Bytes) (mounted : (Backed.image device).Mounts index entry)
    (fits : offset.toNat + chunks.flatten.length ≤ entry.size.toNat) :
    ∃ cursor, Backed.image ((run index offset chunks).result device).2 =
        (Backed.image device).written entry offset.toNat
          (reached index offset chunks device).flatten cursor ∧
      ((((run index offset chunks).result device).1 = .ok () ∧
          reached index offset chunks device = chunks ∧ cursor = none) ∨
        ∃ cause, ((run index offset chunks).result device).1 = Outcome.refuse cause) := by
  have offsetEq : offset = offset.toNat.toUInt32 := UInt32.ofNat_toNat.symm
  rcases openFile_image device offset mounted (by omega) with
    ⟨busyDevice, opened, image⟩ | ⟨cause, refused, image⟩
  · have busy : (Backed.image busyDevice).cursor = some ⟨index, offset.toNat.toUInt32⟩ := by
      rw [image, ← offsetEq]
    have wrote := writeAll_image (⟨index, 0⟩ : WriteSession) chunks busyDevice offset.toNat
      (by rw [image]; exact mounted.written entry 0 [] _) busy fits
    have reachedEq : reached index offset chunks device = reachedFrom chunks busyDevice := by
      simp only [reached, opened]
    rw [result_run_of_open opened, reachedEq]
    generalize ((⟨index, 0⟩ : WriteSession).writeAll chunks).result busyDevice = finished
      at wrote ⊢
    obtain ⟨outcome, after⟩ := finished
    obtain ⟨left, ended⟩ := wrote
    rw [image] at left
    -- Whether the writes went through or not, the device is told to close.
    have closed := closeFile_image after (by rw [left]; rfl)
    rw [left] at closed
    rcases ended with ⟨session, done, all⟩ | ⟨cause, stopped⟩
    · simp only at done
      subst done
      rcases closed with ⟨outcome, leftClosed⟩ | ⟨cause, outcome, leftOpen⟩
      · exact ⟨none, leftClosed, .inl ⟨outcome, all, rfl⟩⟩
      · exact ⟨_, leftOpen, .inr ⟨cause, outcome⟩⟩
    · simp only at stopped
      subst stopped
      rcases closed with ⟨-, leftClosed⟩ | ⟨-, -, leftOpen⟩
      · exact ⟨none, leftClosed, .inr ⟨cause, rfl⟩⟩
      · exact ⟨_, leftOpen, .inr ⟨cause, rfl⟩⟩
  · rw [result_run_of_refused refused, reached_of_refused refused]
    exact ⟨(Backed.image device).cursor, image, .inr ⟨cause, rfl⟩⟩

end WriteSession

end CodeCapsules.Flash
