import CodeCapsules.Flash.Frame
import CodeCapsules.Proofs.Region
import Mathlib.Algebra.Group.Nat.Defs

/-!
Contract: the frame of an image is read exactly as it is written.

Owns:
- numbers in little-endian and big-endian bytes, read back;
- `Exact`, a reader that takes the encodings of admissible values from the front
  of a byte string and refuses everything else;
- the payload and the frame around it.

Main statement: a byte string holds an image exactly if it is the frame of a
payload that starts with the encoding of that image, and the image is in order.

Does not own: which damage a checksum detects.
-/

namespace CodeCapsules

namespace Bytes

theorem ofLittle_lt (bytes : Bytes) : ofLittle bytes < 256 ^ bytes.length := by
  induction bytes with
  | nil => decide
  | cons byte rest inductionHypothesis =>
      have byteLt : byte.toNat < 256 := byte.toNat_lt
      rw [ofLittle, List.length_cons, Nat.pow_succ]
      omega

theorem little_ofLittle (bytes : Bytes) : little bytes.length (ofLittle bytes) = bytes := by
  induction bytes with
  | nil => rfl
  | cons byte rest inductionHypothesis =>
      have byteLt : byte.toNat < 256 := byte.toNat_lt
      have low : (byte.toNat + 256 * ofLittle rest).toUInt8 = byte := by
        apply UInt8.toNat_inj.mp
        rw [UInt8.toNat_ofNat']
        omega
      have high : (byte.toNat + 256 * ofLittle rest) / 256 = ofLittle rest := by omega
      rw [ofLittle, List.length_cons, little, low, high, inductionHypothesis]

theorem ofLittle_little {count value : Nat} (fits : value < 256 ^ count) :
    ofLittle (little count value) = value := by
  induction count generalizing value with
  | zero =>
      rw [Nat.pow_zero] at fits
      rw [little, ofLittle]
      omega
  | succ count inductionHypothesis =>
      rw [Nat.pow_succ] at fits
      rw [little, ofLittle, inductionHypothesis (by omega), UInt8.toNat_ofNat']
      omega

theorem big_ofBig (bytes : Bytes) : big bytes.length (ofBig bytes) = bytes := by
  rw [big, ofBig, ← List.length_reverse, little_ofLittle, List.reverse_reverse]

theorem ofBig_big {count value : Nat} (fits : value < 256 ^ count) :
    ofBig (big count value) = value := by
  rw [big, ofBig, List.reverse_reverse, ofLittle_little fits]

/-- Four bytes stand for a word exactly if they are its big-endian bytes. -/
theorem ofBig_eq_word {bytes : Bytes} {word : UInt32} (four : bytes.length = 4) :
    (ofBig bytes).toUInt32 = word ↔ bytes = big 4 word.toNat := by
  have valueLt : ofBig bytes < UInt32.size := by
    have reversedLt := ofLittle_lt bytes.reverse
    rw [List.length_reverse, four] at reversedLt
    exact reversedLt
  constructor
  · intro read
    rw [← read, toNat_toUInt32 valueLt, ← four, big_ofBig]
  · intro written
    rw [written, ofBig_big (by exact word.toNat_lt)]
    exact UInt32.ofNat_toNat

end Bytes

namespace Flash

namespace Payload

variable {α β : Type}

/-- The reader takes the encodings of admissible values from the front, and
nothing else. -/
def Exact (reader : Reader α) (Admissible : α → Prop) (encode : α → Bytes) : Prop :=
  ∀ (bytes : Bytes) (value : α) (rest : Bytes),
    reader bytes = .ok (value, rest) ↔ Admissible value ∧ bytes = encode value ++ rest

theorem Exact.bind_eq_ok {reader : Reader α} {Admissible : α → Prop} {encode : α → Bytes}
    (exact : Exact reader Admissible encode) {bytes : Bytes}
    {next : α × Bytes → Except SerialDefect β} {result : β} :
    (reader bytes >>= next) = .ok result ↔
      ∃ value rest, (Admissible value ∧ bytes = encode value ++ rest) ∧
        next (value, rest) = .ok result := by
  rw [Outcome.bind_eq_ok, Prod.exists]
  simp only [exact bytes]

theorem exact_takeBytes (count : Nat) :
    Exact (takeBytes count) (fun bytes => bytes.length = count) id := by
  intro bytes chunk rest
  unfold takeBytes
  constructor
  · intro taken
    simp only at taken
    split at taken
    · rename_i sized
      obtain ⟨rfl, rfl⟩ := Prod.mk.inj (Except.ok.inj taken)
      exact ⟨sized, (List.take_append_drop count bytes).symm⟩
    · contradiction
  · rintro ⟨rfl, rfl⟩
    simp

theorem exact_takeNumber (count : Nat) :
    Exact (takeNumber count) (fun value => value < 256 ^ count) (Bytes.little count) := by
  intro bytes value rest
  unfold takeNumber
  rw [(exact_takeBytes count).bind_eq_ok]
  constructor
  · rintro ⟨chunk, behind, ⟨rfl, rfl⟩, returned⟩
    obtain ⟨rfl, rfl⟩ := Prod.mk.inj (Except.ok.inj returned)
    rw [Bytes.little_ofLittle]
    exact ⟨Bytes.ofLittle_lt chunk, rfl⟩
  · rintro ⟨fits, rfl⟩
    refine ⟨Bytes.little count value, rest, ⟨Bytes.length_little count value, rfl⟩, ?_⟩
    simp only [Bytes.ofLittle_little fits]
    rfl

theorem exact_takeEntry : Exact takeEntry (fun _ => True) Entry.encode := by
  intro bytes entry rest
  unfold takeEntry
  simp only [(exact_takeNumber _).bind_eq_ok]
  constructor
  · rintro ⟨base, _, ⟨baseLt, rfl⟩, size, _, ⟨sizeLt, rfl⟩, type, _, ⟨typeLt, rfl⟩, returned⟩
    obtain ⟨rfl, rfl⟩ := Prod.mk.inj (Except.ok.inj returned)
    have baseBack : base.toUInt32.toNat = base := Nat.mod_eq_of_lt baseLt
    have sizeBack : size.toUInt32.toNat = size := Nat.mod_eq_of_lt sizeLt
    simp [Entry.encode, baseBack, sizeBack, Bytes.little]
  · rintro ⟨-, rfl⟩
    refine ⟨entry.base.value.toNat, _, ⟨entry.base.value.toNat_lt, ?_⟩,
      entry.size.toNat, _, ⟨entry.size.toNat_lt, rfl⟩,
      entry.type.value.toNat, rest, ⟨entry.type.value.toNat_lt, rfl⟩, ?_⟩
    · simp [Entry.encode, Bytes.little]
    · simp only [Nat.toUInt32, Nat.toUInt8, UInt32.ofNat_toNat, UInt8.ofNat_toNat]
      rfl

theorem exact_takeEntries (count : Nat) :
    Exact (takeEntries count) (fun entries => entries.length = count)
      (fun entries => entries.flatMap Entry.encode) := by
  induction count with
  | zero =>
      intro bytes entries rest
      unfold takeEntries
      constructor
      · intro returned
        obtain ⟨rfl, rfl⟩ := Prod.mk.inj (Except.ok.inj returned)
        exact ⟨rfl, rfl⟩
      · rintro ⟨none, rfl⟩
        rw [List.length_eq_zero_iff.mp none]
        rfl
  | succ count inductionHypothesis =>
      intro bytes entries rest
      unfold takeEntries
      simp only [exact_takeEntry.bind_eq_ok, inductionHypothesis.bind_eq_ok]
      constructor
      · rintro ⟨entry, _, ⟨-, rfl⟩, others, _, ⟨rfl, rfl⟩, returned⟩
        obtain ⟨rfl, rfl⟩ := Prod.mk.inj (Except.ok.inj returned)
        exact ⟨rfl, by simp⟩
      · rintro ⟨sized, rfl⟩
        obtain ⟨entry, others, rfl⟩ := List.exists_cons_of_length_eq_add_one sized
        refine ⟨entry, others.flatMap Entry.encode ++ rest, ⟨trivial, by simp⟩,
          others, rest, ⟨by simpa using sized, rfl⟩, rfl⟩

/-- The lengths of an image fit the numbers in front of its parts. -/
def Fits (image : Image) : Prop :=
  image.memory.size < 2 ^ 64 ∧ image.files.length < 2 ^ 64

theorem decode_eq_ok {payload : Bytes} {image : Image} :
    decode payload = .ok image ↔
      Fits image ∧ image.cursor = none ∧ ∃ trailing, payload = encode image ++ trailing := by
  unfold decode
  simp only [(exact_takeNumber _).bind_eq_ok, (exact_takeBytes _).bind_eq_ok,
    (exact_takeEntries _).bind_eq_ok]
  constructor
  · rintro ⟨origin, _, ⟨originLt, rfl⟩, _, _, ⟨sizeLt, rfl⟩, memory, _, ⟨rfl, rfl⟩,
      _, _, ⟨countLt, rfl⟩, files, trailing, ⟨rfl, rfl⟩, returned⟩
    obtain rfl := Except.ok.inj returned
    have originBack : origin.toUInt32.toNat = origin := Nat.mod_eq_of_lt originLt
    refine ⟨⟨by simpa using sizeLt, by simpa using countLt⟩, rfl, trailing, ?_⟩
    simp [encode, originBack]
  · rintro ⟨⟨sizeLt, countLt⟩, closed, trailing, rfl⟩
    refine ⟨image.origin.toNat, _, ⟨image.origin.toNat_lt, ?_⟩,
      image.memory.size, _, ⟨sizeLt, rfl⟩, image.memory.toList, _, ⟨rfl, rfl⟩,
      image.files.length, _, ⟨countLt, rfl⟩, image.files, trailing, ⟨rfl, rfl⟩, ?_⟩
    · simp [encode]
    · obtain ⟨origin, memory, files, cursor⟩ := image
      obtain rfl : cursor = none := closed
      simp only [Nat.toUInt32, UInt32.ofNat_toNat]
      rfl

end Payload

namespace Image

/-- A payload behind the magic, the version and its own checksum. -/
def frameOf (payload : Bytes) : Bytes :=
  magic ++ Bytes.big 4 version.toNat ++ Bytes.big 4 (Crc32.checksum payload).toNat ++ payload

theorem eq_frameOf {frame payload : Bytes} :
    frame = frameOf payload ↔
      frameHeaderSize ≤ frame.length ∧ frame.take 4 = magic ∧
        (frame.drop 4).take 4 = Bytes.big 4 version.toNat ∧
        (frame.drop 8).take 4 = Bytes.big 4 (Crc32.checksum payload).toNat ∧
        frame.drop frameHeaderSize = payload := by
  constructor
  · rintro rfl
    simp [frameOf, magic, frameHeaderSize, List.take_append, List.drop_append]
    omega
  · rintro ⟨-, named, versioned, summed, rfl⟩
    calc frame = frame.take 4 ++ (frame.drop 4).take 4 ++ (frame.drop 8).take 4 ++
          frame.drop frameHeaderSize := by
            have afterMagic : frame.drop 8 = (frame.drop 4).drop 4 := by rw [List.drop_drop]
            have afterSum : frame.drop frameHeaderSize = (frame.drop 8).drop 4 := by
              rw [List.drop_drop]; rfl
            rw [afterSum, List.append_assoc, List.take_append_drop, afterMagic,
              List.append_assoc, List.take_append_drop, List.take_append_drop]
      _ = frameOf (frame.drop frameHeaderSize) := by rw [named, versioned, summed]; rfl

theorem ofFrame_eq_ok {frame : Bytes} {image : Image} :
    ofFrame frame = .ok image ↔
      ∃ payload, frame = frameOf payload ∧ Payload.decode payload = .ok image ∧
        image.validate = .ok () := by
  unfold ofFrame
  simp only [Outcome.guard_eq_ok, Outcome.bind_eq_ok, Outcome.mapError_eq_ok, Nat.not_lt, ne_eq,
    Decidable.not_not]
  constructor
  · rintro ⟨long, named, versioned, summed, decoded, read, done, valid, returned⟩
    obtain rfl := Except.ok.inj returned
    refine ⟨frame.drop frameHeaderSize, eq_frameOf.mpr ⟨long, named, ?_, ?_, rfl⟩, read, valid⟩
    · exact (Bytes.ofBig_eq_word (by simp; unfold frameHeaderSize at long; omega)).mp versioned
    · exact (Bytes.ofBig_eq_word (by simp; unfold frameHeaderSize at long; omega)).mp summed.symm
  · rintro ⟨payload, framed, read, valid⟩
    obtain ⟨long, named, versioned, summed, rfl⟩ := eq_frameOf.mp framed
    refine ⟨long, named, ?_, ?_, image, read, (), valid, rfl⟩
    · exact (Bytes.ofBig_eq_word (by rw [versioned, Bytes.length_big])).mpr versioned
    · exact ((Bytes.ofBig_eq_word (by rw [summed, Bytes.length_big])).mpr summed).symm

theorem ofFrame_eq_ok_iff {frame : Bytes} {image : Image} :
    ofFrame frame = .ok image ↔
      Payload.Fits image ∧ image.validate = .ok () ∧ image.cursor = none ∧
        ∃ trailing, frame = frameOf (Payload.encode image ++ trailing) := by
  rw [ofFrame_eq_ok]
  simp only [Payload.decode_eq_ok]
  constructor
  · rintro ⟨payload, rfl, ⟨fits, closed, trailing, rfl⟩, valid⟩
    exact ⟨fits, valid, closed, trailing, rfl⟩
  · rintro ⟨fits, valid, closed, trailing, rfl⟩
    exact ⟨_, rfl, ⟨fits, closed, trailing, rfl⟩, valid⟩

/-- An image that is written is read back with its session closed. -/
theorem ofFrame_toFrame {image : Image} (fits : Payload.Fits image)
    (valid : image.validate = .ok ()) :
    ofFrame image.toFrame = .ok { image with cursor := none } := by
  have held := validateFrom_eq_ok.mp valid
  have closedValid : { image with cursor := none }.validate = .ok () :=
    validateFrom_eq_ok.mpr held
  refine ofFrame_eq_ok_iff.mpr ⟨fits, closedValid, rfl, [], ?_⟩
  rw [List.append_nil]
  rfl

/-- A byte string is read as an image exactly if it is the frame of a payload
that starts with the encoding of this image, and the image is in order. So an
image that is written is read back with its session closed, and a frame without
trailing bytes is what its image is written as. -/
theorem framing_is_exact :
    (∀ (frame : Bytes) (image : Image),
      ofFrame frame = .ok image ↔
        Payload.Fits image ∧ image.validate = .ok () ∧ image.cursor = none ∧
          ∃ trailing, frame = frameOf (Payload.encode image ++ trailing)) ∧
    (∀ image : Image, Payload.Fits image → image.validate = .ok () →
      ofFrame image.toFrame = .ok { image with cursor := none }) ∧
    ∀ (frame : Bytes) (image : Image), ofFrame frame = .ok image →
      frame.length = frameHeaderSize + (Payload.encode image).length →
      image.toFrame = frame := by
  refine ⟨fun _ _ => ofFrame_eq_ok_iff, fun _ => ofFrame_toFrame, ?_⟩
  intro frame image read sized
  obtain ⟨-, -, -, trailing, rfl⟩ := ofFrame_eq_ok_iff.mp read
  have none : trailing = [] := by
    apply List.length_eq_zero_iff.mp
    simp only [frameOf, List.length_append, Bytes.length_big, magic, List.length_cons,
      List.length_nil, frameHeaderSize] at sized
    omega
  rw [none, List.append_nil]
  rfl

/-- The check value of CRC-32: the checksum of the digits from 1 to 9. -/
example : Crc32.checksum [0x31, 0x32, 0x33, 0x34, 0x35, 0x36, 0x37, 0x38, 0x39] = 0xCBF43926 := by
  decide +kernel

/-- Two bytes of memory, a file over the second, and a session open on it. -/
def openImage : Image := ⟨0x100, #[0xA5, 0x5A], [⟨⟨0x101⟩, 1, ⟨4⟩⟩], some ⟨0, 1⟩⟩

theorem framing_of_open_session :
    Payload.Fits openImage ∧ openImage.validate = .ok () ∧
      openImage.toFrame = [0x43, 0x41, 0x50, 0x53, 0, 0, 0, 1, 0xEA, 0xBF, 0x81, 0x04,
        0, 1, 0, 0, 2, 0, 0, 0, 0, 0, 0, 0, 0xA5, 0x5A,
        1, 0, 0, 0, 0, 0, 0, 0, 1, 1, 0, 0, 1, 0, 0, 0, 4] ∧
      ofFrame openImage.toFrame = .ok { openImage with cursor := none } ∧
      ofFrame (frameOf (Payload.encode openImage ++ [7])) =
        .ok { openImage with cursor := none } ∧
      ofFrame openImage.toFrame ≠ .ok openImage := by
  have fits : Payload.Fits openImage := ⟨by decide, by decide⟩
  have valid : openImage.validate = .ok () := rfl
  refine ⟨fits, valid, by decide +kernel, framing_is_exact.2.1 openImage fits valid, ?_, ?_⟩
  · exact (framing_is_exact.1 _ _).mpr ⟨fits, rfl, rfl, [7], rfl⟩
  · intro read
    exact absurd ((framing_is_exact.1 _ _).mp read).2.2.1 nofun

end Image

end Flash

end CodeCapsules
