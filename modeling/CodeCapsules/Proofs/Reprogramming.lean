import CodeCapsules.Proofs.Clearing
import CodeCapsules.Proofs.Recording

/-!
Contract: an image under any requests, in any order.

Owns:
- `Request.result`, the answer of an image to one request, and `after`, the
  image that a list of requests leaves;
- `Sound`, the images that requests lead to;
- `Serves`, all that a request can do to a sound image;
- the bytes that one session has written.

Main statement: every request is answered as `Serves` says. It succeeds exactly
if it is admitted, and then opens a session, writes and moves on, or closes the
session. Otherwise it changes nothing. The bytes of one session lie one behind
the other from its offset on, and all other bytes are as the session found them.

Does not own: devices that refuse requests which their image would admit.
-/

namespace CodeCapsules.Flash

namespace Request

def command : Request → Command Image
  | .openFile index offset => Device.openFile index offset
  | .writeBytes chunk => Device.writeBytes chunk
  | .closeFile => Device.closeFile

def result (request : Request) (image : Image) : Outcome Error Unit × Image :=
  request.command.result image

/-- The length of a byte string is a number of 32 bits. -/
def Short : Request → Prop
  | .writeBytes chunk => chunk.length < UInt32.size
  | _ => True

instance : (request : Request) → Decidable request.Short
  | .openFile _ _ => .isTrue trivial
  | .writeBytes chunk => inferInstanceAs (Decidable (chunk.length < UInt32.size))
  | .closeFile => .isTrue trivial

/-- The image can do what is asked. Only a write of nothing can fit its file and
yet lie behind memory. -/
def Admitted (image : Image) : Request → Prop
  | .openFile index offset =>
      image.cursor = none ∧ ∃ entry, image.file index = .ok entry ∧
        offset.toNat ≤ entry.size.toNat
  | .writeBytes chunk =>
      ∃ cursor entry, image.cursor = some cursor ∧ image.file cursor.fileIndex = .ok entry ∧
        cursor.position.toNat + chunk.length ≤ entry.size.toNat ∧
        entry.base.value.toNat + cursor.position.toNat < image.memoryEnd
  | .closeFile => ∃ cursor, image.cursor = some cursor

end Request

/-- What an exchange has written. -/
def Exchange.bytes : Exchange → Bytes
  | ⟨.writeBytes chunk, .ok _⟩ => chunk
  | _ => []

namespace Image

/-- The image that requests leave, one behind the other. -/
def after : Image → List Request → Image
  | image, [] => image
  | image, request :: rest => after (request.result image).2 rest

/-- The requests with their answers. -/
def exchanges : Image → List Request → List Exchange
  | _, [] => []
  | image, request :: rest =>
      ⟨request, (request.result image).1⟩ :: exchanges (request.result image).2 rest

/-- All files lie in addressable memory, and an open session stands inside its
file. -/
structure Sound (image : Image) : Prop where
  valid : image.validate = .ok ()
  addressable : image.memoryEnd < UInt32.size
  inside : ∀ cursor, image.cursor = some cursor →
    ∃ entry, image.file cursor.fileIndex = .ok entry ∧
      cursor.position.toNat ≤ entry.size.toNat

theorem Sound.mounts {image : Image} (sound : image.Sound) {index : Nat} {entry : Entry}
    (filed : image.file index = .ok entry) : image.Mounts index entry :=
  ⟨filed, holds_of_validate sound.valid filed, sound.addressable⟩

/-! ## One request -/

/-- All that a request can come to. -/
inductive Serves (image : Image) : Request → Outcome Error Unit × Image → Prop where
  | opened {index : Nat} {offset : UInt32} {entry : Entry} (idle : image.cursor = none)
      (filed : image.file index = .ok entry) (inside : offset.toNat ≤ entry.size.toNat) :
      Serves image (.openFile index offset)
        (.ok (), { image with cursor := some ⟨index, offset⟩ })
  | wrote {cursor : Cursor} {entry : Entry} {chunk : Bytes} (busy : image.cursor = some cursor)
      (filed : image.file cursor.fileIndex = .ok entry)
      (fits : cursor.position.toNat + chunk.length ≤ entry.size.toNat)
      (lands : entry.base.value.toNat + cursor.position.toNat < image.memoryEnd) :
      Serves image (.writeBytes chunk)
        (.ok (), image.written entry cursor.position.toNat chunk
          (some ⟨cursor.fileIndex, (cursor.position.toNat + chunk.length).toUInt32⟩))
  | closed {cursor : Cursor} (busy : image.cursor = some cursor) :
      Serves image .closeFile (.ok (), { image with cursor := none })
  | refused {request : Request} (cause : Error) (barred : ¬ request.Admitted image) :
      Serves image request (Outcome.refuse cause, image)

section Serving

variable {image : Image}

/-- A write is admitted to the file of the session, which is the only one. -/
theorem admitted_writeBytes_iff {cursor : Cursor} {entry : Entry} (chunk : Bytes)
    (busy : image.cursor = some cursor) (filed : image.file cursor.fileIndex = .ok entry) :
    (Request.writeBytes chunk).Admitted image ↔
      cursor.position.toNat + chunk.length ≤ entry.size.toNat ∧
        entry.base.value.toNat + cursor.position.toNat < image.memoryEnd := by
  constructor
  · rintro ⟨standing, found, standingEq, foundFiled, fits⟩
    rw [busy] at standingEq
    obtain rfl := Option.some.inj standingEq
    rw [filed] at foundFiled
    obtain rfl := Except.ok.inj foundFiled
    exact fits
  · intro fits
    exact ⟨cursor, entry, busy, filed, fits⟩

theorem serves_openFile (image : Image) (index : Nat) (offset : UInt32) :
    image.Serves (.openFile index offset) ((Request.openFile index offset).result image) := by
  have answer : (Request.openFile index offset).result image = _ :=
    result_replacing (fun image => Outcome.ofExcept (image.openSession index offset)) image
  cases opening : image.openSession index offset with
  | ok opened =>
      obtain ⟨idle, openedEq, entry, filed, inside⟩ := openSession_eq opening
      rw [answer, opening, openedEq]
      exact .opened idle filed inside
  | error cause =>
      rw [opening] at answer
      have barred : ¬ (Request.openFile index offset).Admitted image := by
        rintro ⟨idle, entry, filed, inside⟩
        have accepted : (Request.openFile index offset).result image = _ :=
          result_openFile_filed filed idle inside
        rw [answer] at accepted
        exact absurd (congrArg Prod.fst accepted) (by simp [Outcome.refuse])
      rw [answer]
      exact .refused cause barred

theorem serves_closeFile (image : Image) :
    image.Serves .closeFile (Request.closeFile.result image) := by
  cases cursor : image.cursor with
  | some standing =>
      rw [show Request.closeFile.result image = _ from result_closeFile cursor]
      exact .closed cursor
  | none =>
      have refused : Request.closeFile.result image =
          (Outcome.refuse .sessionNotOpen, image) := by
        show closeSession.result image = _
        unfold Operation.result closeSession
        simp only [cursor]
        rfl
      rw [refused]
      refine .refused _ ?_
      rintro ⟨standing, busy⟩
      rw [cursor] at busy
      contradiction

theorem Sound.serves_writeBytes (sound : image.Sound) {chunk : Bytes}
    (short : chunk.length < UInt32.size) :
    image.Serves (.writeBytes chunk) ((Request.writeBytes chunk).result image) := by
  cases cursorEq : image.cursor with
  | none =>
      have refused : (Request.writeBytes chunk).result image =
          (Outcome.refuse .sessionNotOpen, image) := by
        show (replacing fun image => image.writeSession chunk).result image = _
        rw [result_replacing]
        unfold writeSession
        simp only [cursorEq]
        rfl
      rw [refused]
      refine .refused _ ?_
      rintro ⟨standing, -, busy, -⟩
      rw [cursorEq] at busy
      contradiction
  | some cursor =>
      obtain ⟨entry, filed, inside⟩ := sound.inside cursor cursorEq
      have mounted := sound.mounts filed
      have busy : image.cursor = some ⟨cursor.fileIndex, cursor.position.toNat.toUInt32⟩ := by
        rw [cursorEq, show cursor.position.toNat.toUInt32 = cursor.position from
          UInt32.ofNat_toNat]
      have admitted_iff := admitted_writeBytes_iff chunk cursorEq filed
      by_cases fits : cursor.position.toNat + chunk.length ≤ entry.size.toNat
      · have answer : (Request.writeBytes chunk).result image = _ :=
          result_writeBytes chunk mounted busy fits
        by_cases lands : entry.base.value.toNat + cursor.position.toNat < image.memoryEnd
        · rw [answer, if_pos lands]
          exact .wrote cursorEq filed fits lands
        · rw [answer, if_neg lands]
          exact .refused _ fun admitted => lands (admitted_iff.mp admitted).2
      · obtain ⟨cause, answer⟩ :=
          result_writeBytes_of_overrun chunk mounted busy inside short (Nat.not_le.mp fits)
        rw [show (Request.writeBytes chunk).result image = _ from answer]
        exact .refused cause fun admitted => fits (admitted_iff.mp admitted).1

theorem Sound.serves (sound : image.Sound) {request : Request} (short : request.Short) :
    image.Serves request (request.result image) := by
  cases request with
  | openFile index offset => exact serves_openFile image index offset
  | writeBytes chunk => exact sound.serves_writeBytes short
  | closeFile => exact serves_closeFile image

variable {request : Request} {answer : Outcome Error Unit × Image}

theorem Serves.answered (serves : image.Serves request answer) : answer.1.Answered := by
  cases serves with
  | opened => exact Outcome.answered_ok _
  | wrote => exact Outcome.answered_ok _
  | closed => exact Outcome.answered_ok _
  | refused cause => exact Outcome.answered_refuse cause

theorem Serves.unchanged (serves : image.Serves request answer) {stop : Stop Error}
    (failed : answer.1 = .error stop) : answer.2 = image := by
  cases serves with
  | opened => contradiction
  | wrote => contradiction
  | closed => contradiction
  | refused => rfl

theorem Serves.succeeds_iff (serves : image.Serves request answer) :
    answer.1 = .ok () ↔ request.Admitted image := by
  cases serves with
  | opened idle filed inside => exact iff_of_true rfl ⟨idle, _, filed, inside⟩
  | wrote busy filed fits lands => exact iff_of_true rfl ⟨_, _, busy, filed, fits, lands⟩
  | closed busy => exact iff_of_true rfl ⟨_, busy⟩
  | refused cause barred => exact iff_of_false (by simp [Outcome.refuse]) barred

theorem Serves.files (serves : image.Serves request answer) : answer.2.files = image.files := by
  cases serves with
  | opened => rfl
  | wrote => rfl
  | closed => rfl
  | refused => rfl

theorem Sound.rewritten (sound : image.Sound) (start : Nat) (chunk : Bytes)
    {cursor : Option Cursor}
    (inside : ∀ standing, cursor = some standing →
      ∃ entry, image.file standing.fileIndex = .ok entry ∧
        standing.position.toNat ≤ entry.size.toNat) :
    (image.rewritten start chunk cursor).Sound := by
  have memoryEnd : (image.rewritten start chunk cursor).memoryEnd = image.memoryEnd := by
    simp [Image.memoryEnd]
  refine ⟨?_, ?_, inside⟩
  · apply validateFrom_eq_ok.mpr
    intro entry member
    have holds := validateFrom_eq_ok.mp sound.valid entry member
    unfold Holds at holds ⊢
    rw [memoryEnd]
    exact holds
  · rw [memoryEnd]
    exact sound.addressable

theorem Serves.sound (serves : image.Serves request answer) (sound : image.Sound) :
    answer.2.Sound := by
  cases serves with
  | opened idle filed inside =>
      refine sound.rewritten 0 [] ?_
      rintro cursor ⟨⟩
      exact ⟨_, filed, inside⟩
  | wrote busy filed fits lands =>
      refine sound.rewritten _ _ ?_
      rintro cursor ⟨⟩
      exact ⟨_, filed, by rw [toNat_place _ fits]; exact fits⟩
  | closed busy => exact sound.rewritten 0 [] (by simp)
  | refused => exact sound

/-- A write of some bytes is admitted exactly if they fit the file. -/
theorem Sound.admitted_write_iff (sound : image.Sound) {cursor : Cursor} {entry : Entry}
    {chunk : Bytes} (busy : image.cursor = some cursor)
    (filed : image.file cursor.fileIndex = .ok entry) (nonempty : chunk ≠ []) :
    (Request.writeBytes chunk).Admitted image ↔
      cursor.position.toNat + chunk.length ≤ entry.size.toNat := by
  have positive := List.length_pos_iff.mpr nonempty
  have finishLe := (sound.mounts filed).holds.2
  rw [admitted_writeBytes_iff chunk busy filed]
  omega

end Serving

/-! ## Many requests -/

section Running

variable {image : Image} {requests : List Request}

theorem Sound.after (sound : image.Sound) (short : ∀ request ∈ requests, request.Short) :
    (image.after requests).Sound := by
  induction requests generalizing image with
  | nil => exact sound
  | cons request rest inductionHypothesis =>
      obtain ⟨requestShort, restShort⟩ := List.forall_mem_cons.mp short
      exact inductionHypothesis ((sound.serves requestShort).sound sound) restShort

theorem Sound.files_after (sound : image.Sound) (short : ∀ request ∈ requests, request.Short) :
    (image.after requests).files = image.files := by
  induction requests generalizing image with
  | nil => rfl
  | cons request rest inductionHypothesis =>
      obtain ⟨requestShort, restShort⟩ := List.forall_mem_cons.mp short
      have serves := sound.serves requestShort
      exact (inductionHypothesis (serves.sound sound) restShort).trans serves.files

variable {index place : Nat} {entry : Entry}

/-- As long as it is not closed, a session goes on behind the bytes that it has
written, if there are any. -/
theorem Serves.goesOn {request : Request} {answer : Outcome Error Unit × Image}
    (serves : image.Serves request answer) (filed : image.file index = .ok entry)
    (busy : image.cursor = some ⟨index, place.toUInt32⟩) (inside : place ≤ entry.size.toNat)
    (open_ : request ≠ .closeFile) :
    place + (Exchange.bytes ⟨request, answer.1⟩).length ≤ entry.size.toNat ∧
      answer.2 = image.written entry place (Exchange.bytes ⟨request, answer.1⟩)
        (some ⟨index, (place + (Exchange.bytes ⟨request, answer.1⟩).length).toUInt32⟩) := by
  have placeEq := toNat_place entry inside
  cases serves with
  | opened idle =>
      rw [busy] at idle
      contradiction
  | wrote standingBusy standingFiled fits lands =>
      rw [busy] at standingBusy
      obtain rfl := Option.some.inj standingBusy
      rw [filed] at standingFiled
      obtain rfl := Except.ok.inj standingFiled
      simp only [placeEq] at fits ⊢
      exact ⟨fits, rfl⟩
  | closed => exact absurd rfl open_
  | refused cause =>
      have silent : Exchange.bytes ⟨request, Outcome.refuse cause⟩ = [] := by
        cases request with
        | openFile => rfl
        | writeBytes => rfl
        | closeFile => rfl
      rw [silent]
      refine ⟨inside, ?_⟩
      rw [List.length_nil, Nat.add_zero, ← busy, written_nil]

/-- What a session has written lies from its place on, one byte string behind
the other. -/
theorem Sound.after_session (sound : image.Sound) (filed : image.file index = .ok entry)
    (busy : image.cursor = some ⟨index, place.toUInt32⟩) (inside : place ≤ entry.size.toNat)
    (session : List Request)
    (open_ : ∀ request ∈ session, request.Short ∧ request ≠ .closeFile) :
    place + ((image.exchanges session).flatMap Exchange.bytes).length ≤ entry.size.toNat ∧
      image.after session =
        image.written entry place ((image.exchanges session).flatMap Exchange.bytes)
          (some ⟨index, (place +
            ((image.exchanges session).flatMap Exchange.bytes).length).toUInt32⟩) := by
  induction session generalizing image place with
  | nil =>
      refine ⟨inside, ?_⟩
      show image = image.written entry place [] (some ⟨index, (place + 0).toUInt32⟩)
      rw [Nat.add_zero, ← busy, written_nil]
  | cons request rest inductionHypothesis =>
      obtain ⟨⟨short, stays⟩, restOpen⟩ := List.forall_mem_cons.mp open_
      have serves := sound.serves short
      obtain ⟨fits, wrote⟩ := serves.goesOn filed busy inside stays
      obtain ⟨restFits, restWrote⟩ := inductionHypothesis (serves.sound sound)
        (by rw [wrote]; exact filed) (by rw [wrote]; rfl) fits restOpen
      rw [exchanges, List.flatMap_cons, List.length_append, ← Nat.add_assoc]
      refine ⟨restFits, restWrote.trans ?_⟩
      generalize ((request.result image).2.exchanges rest).flatMap Exchange.bytes = more
      rw [wrote, written_written]

end Running

/-- After any requests to an idle image, every further request does what `Serves`
allows and nothing else: an open sets the session to its offset, a write puts its
bytes where the session stands and moves it behind them, a close ends it, and
none of them changes anything beside. A request is always answered, and leaves
the image as it is if it fails. The image opens a file exactly if no
session is open and the offset is inside the file, closes exactly an open
session, and writes some bytes exactly if they fit behind the place of the
session, which is never behind its file. What a session has written stands in
memory from its offset on, and the rest of memory is as the session found it. -/
theorem image_serves_exactly_admitted_requests (image : Image) (requests : List Request)
    (valid : image.validate = .ok ()) (addressable : image.memoryEnd < UInt32.size)
    (idle : image.cursor = none) (short : ∀ request ∈ requests, request.Short) :
    let last := image.after requests
    last.files = image.files ∧
    (∀ request : Request, request.Short →
      last.Serves request (request.result last) ∧ (request.result last).1.Answered ∧
        ∀ stop, (request.result last).1 = .error stop → (request.result last).2 = last) ∧
    (∀ index offset, ((Request.openFile index offset).result last).1 = .ok () ↔
      last.cursor = none ∧ ∃ entry, last.file index = .ok entry ∧
        offset.toNat ≤ entry.size.toNat) ∧
    ((Request.closeFile.result last).1 = .ok () ↔ ∃ cursor, last.cursor = some cursor) ∧
    (∀ cursor, last.cursor = some cursor →
      ∃ entry, last.file cursor.fileIndex = .ok entry ∧
        cursor.position.toNat ≤ entry.size.toNat ∧
        ∀ chunk : Bytes, chunk ≠ [] → chunk.length < UInt32.size →
          (((Request.writeBytes chunk).result last).1 = .ok () ↔
            cursor.position.toNat + chunk.length ≤ entry.size.toNat)) ∧
    ∀ (index : Nat) (offset : UInt32) (entry : Entry) (opened : Image) (session : List Request),
      last.file index = .ok entry →
      (Request.openFile index offset).result last = (.ok (), opened) →
      (∀ request ∈ session, request.Short ∧ request ≠ .closeFile) →
        let sent := (opened.exchanges session).flatMap Exchange.bytes
        offset.toNat + sent.length ≤ entry.size.toNat ∧
          (opened.after session).memory.toList =
            Bytes.splice last.memory.toList
              (entry.base.value.toNat - last.origin.toNat + offset.toNat) sent := by
  intro last
  have sound : image.Sound := ⟨valid, addressable, by simp [idle]⟩
  have lastSound : last.Sound := sound.after short
  refine ⟨sound.files_after short, ?_, ?_, ?_, ?_, ?_⟩
  · intro request requestShort
    have serves := lastSound.serves requestShort
    exact ⟨serves, serves.answered, fun stop => serves.unchanged⟩
  · intro index offset
    exact (serves_openFile last index offset).succeeds_iff
  · exact (serves_closeFile last).succeeds_iff
  · intro cursor busy
    obtain ⟨entry, filed, inside⟩ := lastSound.inside cursor busy
    refine ⟨entry, filed, inside, ?_⟩
    intro chunk nonempty chunkShort
    exact (lastSound.serves_writeBytes chunkShort).succeeds_iff.trans
      (lastSound.admitted_write_iff busy filed nonempty)
  · intro index offset entry opened session filed opening open_ sent
    have serves := serves_openFile last index offset
    rw [opening] at serves
    have openedSound : opened.Sound := serves.sound lastSound
    cases serves with
    | opened _ found inside =>
        rw [filed] at found
        obtain rfl := Except.ok.inj found
        obtain ⟨fits, wrote⟩ := openedSound.after_session filed
          (congrArg (fun place => some (⟨index, place⟩ : Cursor)) UInt32.ofNat_toNat.symm)
          inside session open_
        change offset.toNat + sent.length ≤ entry.size.toNat at fits
        have room := regionEnd_le (lastSound.mounts filed).holds
        refine ⟨fits, ?_⟩
        rw [wrote]
        apply Bytes.toList_overwrite
        show last.regionStart entry + _ + sent.length ≤ last.memory.size
        omega

/-- Two files that share a border, in memory that begins before the first and
ends with the second. -/
def borderImage : Image :=
  ⟨0x4FF, #[0, 1, 2, 3, 4, 5, 6, 7], [⟨⟨0x500⟩, 2, .library⟩, ⟨⟨0x502⟩, 5, .tables⟩], none⟩

/-- Requests that open a file and close it, among others that are refused. -/
def strayRequests : List Request :=
  [.writeBytes [9], .openFile 0 1, .openFile 1 0, .writeBytes [9, 9], .closeFile, .closeFile]

def borderSession : Image := { borderImage with cursor := some ⟨1, 1⟩ }

/-- Requests that fill the file of the session, among others that are refused. -/
def fillingRequests : List Request :=
  [.writeBytes [20, 21, 22, 23, 24], .writeBytes [10, 11], .openFile 0 0, .writeBytes [12, 13, 14],
    .writeBytes [], .writeBytes [15, 16], .writeBytes [17]]

theorem border_session_fills_its_file :
    borderImage.validate = .ok () ∧ borderImage.memoryEnd < UInt32.size ∧
      borderImage.cursor = none ∧
      (∀ request ∈ strayRequests ++ fillingRequests, request.Short) ∧
      (Request.openFile 1 1).result (borderImage.after strayRequests) = (.ok (), borderSession) ∧
      (borderSession.exchanges fillingRequests).flatMap Exchange.bytes = [10, 11, 15, 16] ∧
      (borderSession.after fillingRequests).memory.toList = [0, 1, 2, 3, 10, 11, 15, 16] := by
  have short : ∀ request ∈ strayRequests ++ fillingRequests, request.Short := by decide
  have stays : ∀ request ∈ fillingRequests, request ≠ .closeFile := by decide
  have opening : (Request.openFile 1 1).result (borderImage.after strayRequests) =
      (.ok (), borderSession) := by decide +kernel
  have sent : (borderSession.exchanges fillingRequests).flatMap Exchange.bytes =
      [10, 11, 15, 16] := by decide +kernel
  have served := (image_serves_exactly_admitted_requests borderImage strayRequests (by decide)
    (by decide) rfl fun request member => short request (List.mem_append_left _ member)).2.2.2.2.2
  obtain ⟨-, memory⟩ := served 1 1 ⟨⟨0x502⟩, 5, .tables⟩ borderSession fillingRequests rfl opening
    fun request member =>
      ⟨short request (List.mem_append_right _ member), stays request member⟩
  refine ⟨by decide, by decide, rfl, short, opening, sent, ?_⟩
  rw [memory, sent]
  decide +kernel

end Image

end CodeCapsules.Flash
