import CodeCapsules.Store.Record
import CodeCapsules.Proofs.Splice

/-!
Contract: the format of a container, said of its bytes alone.

A container holds capsules one behind the other. Behind the last of them stand
two zero bytes, unless no two bytes are left.

Owns:
- capsules, which are headers with the code they announce, and their bytes;
- `Spells`, `Ends` and `Breaks`, what can be found at a place of a byte string;
- `Contains`, the whole format, and the records that its capsules are listed as.

Main statement: every byte string spells capsules up to a place where the list
of capsules either ends or breaks off.

Does not own: the walk that reads a device.
-/

namespace CodeCapsules.Store

namespace Header

@[simp]
theorem length_encode (header : Header) : header.encode.length = headerSize := by
  simp [encode, Hash.toBytes, headerSize]

theorem encode_eq (header : Header) :
    header.encode = [header.length.toNat.toUInt8, (header.length.toNat / 256).toUInt8,
      header.hash.first, header.hash.second, header.hash.third, header.hash.fourth] := by
  rw [encode, Bytes.little_two]
  rfl

/-- The header is read back from its six bytes. -/
theorem decode?_encode (header : Header) : decode? header.encode = some header := by
  rw [encode_eq, decode?, Bytes.word_of_little]

/-- Six bytes are those of the header read from them. -/
theorem encode_of_decode? {bytes : Bytes} {header : Header}
    (decoded : decode? bytes = some header) : header.encode = bytes := by
  unfold decode? at decoded
  split at decoded
  · rename_i low high first second third fourth
    have headerEq := Option.some.inj decoded
    have lowLt : low.toNat < 256 := low.toNat_lt
    have highLt : high.toNat < 256 := high.toNat_lt
    rw [← headerEq, encode_eq]
    simp only [Bytes.toNat_word, List.cons.injEq, and_true]
    refine ⟨UInt8.toNat_inj.mp ?_, UInt8.toNat_inj.mp ?_⟩
    · rw [UInt8.toNat_ofNat']
      omega
    · rw [UInt8.toNat_ofNat']
      omega
  · contradiction

end Header

/-- A capsule: a header and the code that its length announces. -/
structure Capsule where
  header : Header
  code : Bytes
  sized : header.length.toNat = headerSize + code.length
deriving DecidableEq, Repr

namespace Capsule

/-- How many bytes the capsule takes. -/
def size (capsule : Capsule) : Nat := capsule.header.length.toNat

/-- The bytes of the capsule. -/
def encode (capsule : Capsule) : Bytes := capsule.header.encode ++ capsule.code

@[simp]
theorem length_encode (capsule : Capsule) : capsule.encode.length = capsule.size := by
  rw [encode, List.length_append, Header.length_encode, size, capsule.sized]

theorem headerSize_le_size (capsule : Capsule) : headerSize ≤ capsule.size := by
  rw [size, capsule.sized]
  omega

end Capsule

/-- The bytes of capsules one behind the other. -/
def encodeAll (capsules : List Capsule) : Bytes := capsules.flatMap Capsule.encode

/-- How many bytes capsules take together. -/
def totalSize : List Capsule → Nat
  | [] => 0
  | capsule :: rest => capsule.size + totalSize rest

/-- The records of capsules that lie one behind the other from `start` on. -/
def recordsAt (start : Nat) : List Capsule → List Record
  | [] => []
  | capsule :: rest =>
      ⟨⟨start.toUInt16⟩, capsule.header⟩ :: recordsAt (start + capsule.size) rest

@[simp]
theorem totalSize_nil : totalSize [] = 0 := rfl

@[simp]
theorem totalSize_cons (capsule : Capsule) (rest : List Capsule) :
    totalSize (capsule :: rest) = capsule.size + totalSize rest := rfl

@[simp]
theorem totalSize_append (left right : List Capsule) :
    totalSize (left ++ right) = totalSize left + totalSize right := by
  induction left with
  | nil => simp
  | cons capsule rest inductionHypothesis =>
      rw [List.cons_append, totalSize_cons, totalSize_cons, inductionHypothesis, Nat.add_assoc]

theorem encodeAll_cons (capsule : Capsule) (rest : List Capsule) :
    encodeAll (capsule :: rest) = capsule.encode ++ encodeAll rest := rfl

@[simp]
theorem encodeAll_singleton (capsule : Capsule) : encodeAll [capsule] = capsule.encode := by
  simp [encodeAll]

@[simp]
theorem length_encodeAll (capsules : List Capsule) :
    (encodeAll capsules).length = totalSize capsules := by
  induction capsules with
  | nil => rfl
  | cons capsule rest inductionHypothesis =>
      rw [encodeAll_cons, List.length_append, inductionHypothesis, Capsule.length_encode,
        totalSize_cons]

theorem recordsAt_append (start : Nat) (left right : List Capsule) :
    recordsAt start (left ++ right) =
      recordsAt start left ++ recordsAt (start + totalSize left) right := by
  induction left generalizing start with
  | nil => rfl
  | cons capsule rest inductionHypothesis =>
      rw [List.cons_append, recordsAt, inductionHypothesis, totalSize_cons, Nat.add_assoc]
      rfl

/-! ## What stands at a place -/

/-- From `start` on, the bytes of these capsules stand there. -/
def Spells (bytes : Bytes) (start : Nat) (capsules : List Capsule) : Prop :=
  encodeAll capsules <+: bytes.drop start

/-- The list of capsules ends at `place`: two zero bytes stand there, or no two
bytes are left. -/
def Ends (bytes : Bytes) (place : Nat) : Prop :=
  (place + terminatorSize ≤ bytes.length ∧ bytes[place]? = some 0 ∧ bytes[place + 1]? = some 0) ∨
    bytes.length < place + terminatorSize

/-- The little-endian length that two bytes at `place` give. -/
def lengthAt? (bytes : Bytes) (place : Nat) : Option UInt16 := do
  let low ← bytes[place]?
  let high ← bytes[place + 1]?
  return low.toUInt16 ||| (high.toUInt16 <<< 8)

/-- The list of capsules breaks off at `place`: the length there is not zero,
but covers no header or runs past the end. -/
def Breaks (bytes : Bytes) (place : Nat) (length : UInt16) : Prop :=
  lengthAt? bytes place = some length ∧
    (0 < length.toNat ∧ length.toNat < headerSize ∨ bytes.length < place + length.toNat)

/-- Why the length at a place where the list breaks off is refused. -/
def breakReason (capacity place : Nat) (length : UInt16) : Corruption :=
  if length.toNat < headerSize then .shorterThanHeader length.toNat
  else .pastEnd (place + length.toNat) capacity

/-- The whole format: capsules from `start` on, and the end of their list. -/
structure Contains (bytes : Bytes) (start : Nat) (capsules : List Capsule) : Prop where
  spelled : Spells bytes start capsules
  ended : Ends bytes (start + totalSize capsules)

section Places

variable {bytes : Bytes} {start place : Nat} {capsules : List Capsule}

@[simp]
theorem spells_nil : Spells bytes start [] := List.nil_prefix

/-- Spelling capsules means spelling the first and then the others behind it. -/
theorem spells_cons {capsule : Capsule} :
    Spells bytes start (capsule :: capsules) ↔
      Spells bytes start [capsule] ∧ Spells bytes (start + capsule.size) capsules := by
  unfold Spells
  rw [encodeAll_cons, encodeAll_singleton]
  constructor
  · rintro ⟨rest, spelled⟩
    rw [List.append_assoc] at spelled
    refine ⟨⟨encodeAll capsules ++ rest, spelled⟩, ⟨rest, ?_⟩⟩
    · rw [← List.drop_drop, ← spelled, ← Capsule.length_encode, List.drop_left]
  · rintro ⟨⟨rest, head⟩, ⟨behind, tail⟩⟩
    refine ⟨behind, ?_⟩
    rw [List.append_assoc, tail, ← List.drop_drop, ← head,
      ← Capsule.length_encode, List.drop_left]

theorem spells_append {left right : List Capsule} :
    Spells bytes start (left ++ right) ↔
      Spells bytes start left ∧ Spells bytes (start + totalSize left) right := by
  induction left generalizing start with
  | nil => simp
  | cons capsule rest inductionHypothesis =>
      rw [List.cons_append, spells_cons, inductionHypothesis, ← and_assoc, ← spells_cons,
        totalSize_cons, Nat.add_assoc]

/-- Spelled capsules lie inside the byte string. -/
theorem Spells.totalSize_le (spelled : Spells bytes start capsules) :
    totalSize capsules ≤ bytes.length - start := by
  have prefixLe := spelled.length_le
  rw [length_encodeAll, List.length_drop] at prefixLe
  exact prefixLe

theorem Spells.capsule_fits {capsule : Capsule} (spelled : Spells bytes start [capsule]) :
    start + capsule.size ≤ bytes.length := by
  have total := spelled.totalSize_le
  have positive := capsule.headerSize_le_size
  simp only [totalSize_cons, totalSize_nil, headerSize] at total positive
  omega

/-- The bytes of a capsule, with what stands behind it. -/
theorem Spells.drop_eq {capsule : Capsule} (spelled : Spells bytes start [capsule]) :
    bytes.drop start = capsule.header.encode ++ (capsule.code ++
      bytes.drop (start + capsule.size)) := by
  obtain ⟨rest, restEq⟩ := spelled
  rw [encodeAll_singleton] at restEq
  have behind : bytes.drop (start + capsule.size) = rest := by
    rw [← List.drop_drop, ← restEq, ← Capsule.length_encode, List.drop_left]
  rw [behind, ← restEq, Capsule.encode, List.append_assoc]

/-! ## The length at a place -/

theorem lengthAt?_eq_some {low high : UInt8} (lowAt : bytes[place]? = some low)
    (highAt : bytes[place + 1]? = some high) :
    lengthAt? bytes place = some (low.toUInt16 ||| (high.toUInt16 <<< 8)) := by
  simp [lengthAt?, lowAt, highAt]

theorem room_of_lengthAt? {length : UInt16} (lengthAt : lengthAt? bytes place = some length) :
    place + terminatorSize ≤ bytes.length := by
  cases highAt : bytes[place + 1]? with
  | none => simp [lengthAt?, highAt] at lengthAt
  | some high =>
      have highLt := (List.getElem?_eq_some_iff.mp highAt).1
      unfold terminatorSize
      omega

/-- A header gives its length at the place where it stands. -/
theorem lengthAt?_of_header {header : Header} {rest : Bytes}
    (standing : bytes.drop place = header.encode ++ rest) :
    lengthAt? bytes place = some header.length := by
  have lowAt : bytes[place]? = some header.length.toNat.toUInt8 := by
    rw [← Nat.add_zero place, ← List.getElem?_drop, standing, Header.encode_eq]
    rfl
  have highAt : bytes[place + 1]? = some (header.length.toNat / 256).toUInt8 := by
    rw [← List.getElem?_drop, standing, Header.encode_eq]
    rfl
  rw [lengthAt?_eq_some lowAt highAt, Bytes.word_of_little]

/-- Where six bytes are left, a header can be read. -/
theorem exists_header (bytes : Bytes) (place : Nat) (room : place + headerSize ≤ bytes.length) :
    ∃ header : Header, bytes.drop place = header.encode ++ bytes.drop (place + headerSize) := by
  have windowLength : ((bytes.drop place).take headerSize).length = headerSize := by
    rw [List.length_take, List.length_drop]
    omega
  have decodable : ∀ window : Bytes, window.length = headerSize →
      ∃ header, Header.decode? window = some header
    | [_, _, _, _, _, _], _ => ⟨_, rfl⟩
  obtain ⟨header, decoded⟩ := decodable _ windowLength
  refine ⟨header, ?_⟩
  rw [Header.encode_of_decode? decoded, ← List.drop_drop, List.take_append_drop]

/-- A header before as many bytes as it announces makes a capsule, whatever
these bytes are. -/
theorem exists_capsule {header : Header} {rest : Bytes}
    (standing : bytes.drop place = header.encode ++ rest)
    (covered : headerSize ≤ header.length.toNat)
    (fits : place + header.length.toNat ≤ bytes.length) :
    ∃ capsule : Capsule, capsule.header = header ∧
      capsule.code = rest.take (header.length.toNat - headerSize) ∧
      Spells bytes place [capsule] := by
  have codeLength : (rest.take (header.length.toNat - headerSize)).length =
      header.length.toNat - headerSize := by
    have lengths := congrArg List.length standing
    rw [List.length_drop, List.length_append, Header.length_encode] at lengths
    rw [List.length_take]
    omega
  refine ⟨⟨header, rest.take (header.length.toNat - headerSize), by rw [codeLength]; omega⟩,
    rfl, rfl, ⟨rest.drop (header.length.toNat - headerSize), ?_⟩⟩
  rw [encodeAll_singleton, Capsule.encode, List.append_assoc, List.take_append_drop, standing]

/-- At every place the list of capsules ends, breaks off, or goes on with a
capsule. -/
theorem ends_or_breaks_or_spells (bytes : Bytes) (place : Nat) :
    Ends bytes place ∨ (∃ length, Breaks bytes place length) ∨
      ∃ capsule, Spells bytes place [capsule] := by
  by_cases room : place + terminatorSize ≤ bytes.length
  · have roomTwo : place + 2 ≤ bytes.length := room
    have lowAt : bytes[place]? = some bytes[place] := List.getElem?_eq_getElem (by omega)
    have highAt : bytes[place + 1]? = some bytes[place + 1] := List.getElem?_eq_getElem (by omega)
    have lengthAt := lengthAt?_eq_some lowAt highAt
    have value := Bytes.toNat_word bytes[place] bytes[place + 1]
    generalize bytes[place].toUInt16 ||| (bytes[place + 1].toUInt16 <<< 8) = length
      at lengthAt value
    by_cases zero : length.toNat = 0
    · left
      left
      have lowZero : bytes[place] = 0 := UInt8.toNat_inj.mp (by simp only [UInt8.toNat_zero]; omega)
      have highZero : bytes[place + 1] = 0 :=
        UInt8.toNat_inj.mp (by simp only [UInt8.toNat_zero]; omega)
      rw [lowAt, highAt, lowZero, highZero]
      exact ⟨room, rfl, rfl⟩
    · right
      by_cases short : length.toNat < headerSize
      · exact .inl ⟨length, lengthAt, .inl ⟨by omega, short⟩⟩
      by_cases past : bytes.length < place + length.toNat
      · exact .inl ⟨length, lengthAt, .inr past⟩
      obtain ⟨header, standing⟩ := exists_header bytes place (by omega)
      have lengthEq : header.length = length := by
        rw [lengthAt?_of_header standing] at lengthAt
        exact Option.some.inj lengthAt
      obtain ⟨capsule, -, -, spelled⟩ := exists_capsule standing (by rw [lengthEq]; omega)
        (by rw [lengthEq]; omega)
      exact .inr ⟨capsule, spelled⟩
  · exact .inl (.inr (by omega))

/-- Every byte string spells capsules up to a place where their list ends or
breaks off. -/
theorem exists_spelled (bytes : Bytes) (start : Nat) :
    ∃ capsules, Spells bytes start capsules ∧
      (Ends bytes (start + totalSize capsules) ∨
        ∃ length, Breaks bytes (start + totalSize capsules) length) := by
  induction remaining : bytes.length - start using Nat.strongRecOn generalizing start with
  | ind remaining inductionHypothesis =>
      rcases ends_or_breaks_or_spells bytes start with ended | broken | ⟨capsule, spelled⟩
      · exact ⟨[], spells_nil, .inl ended⟩
      · exact ⟨[], spells_nil, .inr broken⟩
      · have fits := spelled.capsule_fits
        have positive := capsule.headerSize_le_size
        unfold headerSize at positive
        obtain ⟨rest, restSpelled, stopped⟩ := inductionHypothesis
          (bytes.length - (start + capsule.size)) (by omega) (start + capsule.size) rfl
        refine ⟨capsule :: rest, spells_cons.mpr ⟨spelled, restSpelled⟩, ?_⟩
        rw [totalSize_cons, ← Nat.add_assoc]
        exact stopped

/-! ## One reading only -/

theorem not_ends_of_spells {capsule : Capsule} (spelled : Spells bytes place [capsule]) :
    ¬ Ends bytes place := by
  have fits := spelled.capsule_fits
  have positive := capsule.headerSize_le_size
  unfold headerSize at positive
  rintro (⟨-, lowAt, highAt⟩ | short)
  · have lengthAt := lengthAt?_of_header spelled.drop_eq
    rw [lengthAt?_eq_some lowAt highAt] at lengthAt
    have lengthZero : capsule.header.length.toNat = 0 := by
      rw [← Option.some.inj lengthAt]
      rfl
    unfold Capsule.size at positive
    omega
  · unfold terminatorSize at short
    omega

/-- At one place at most one capsule stands. -/
theorem Spells.capsule_unique {left right : Capsule} (leftSpelled : Spells bytes place [left])
    (rightSpelled : Spells bytes place [right]) : left = right := by
  have leftLength := lengthAt?_of_header leftSpelled.drop_eq
  have rightLength := lengthAt?_of_header rightSpelled.drop_eq
  have sameLength : left.header.length = right.header.length := by
    rw [leftLength] at rightLength
    exact Option.some.inj rightLength
  have sameCodeLength : left.code.length = right.code.length := by
    have leftSized := left.sized
    have rightSized := right.sized
    rw [sameLength] at leftSized
    omega
  have sameBytes := leftSpelled.drop_eq
  rw [rightSpelled.drop_eq] at sameBytes
  obtain ⟨headerBytes, behind⟩ := List.append_inj sameBytes (by simp)
  have headerEq : left.header = right.header := by
    have decoded := Header.decode?_encode left.header
    rw [← headerBytes, Header.decode?_encode] at decoded
    exact (Option.some.inj decoded).symm
  have codeEq : left.code = right.code :=
    (List.append_inj behind sameCodeLength.symm).1.symm
  cases left
  cases right
  simp only at headerEq codeEq
  subst headerEq codeEq
  rfl

/-- A byte string contains at most one list of capsules. -/
theorem Contains.unique {left right : List Capsule} (leftContained : Contains bytes start left)
    (rightContained : Contains bytes start right) : left = right := by
  induction left generalizing start right with
  | nil =>
      cases right with
      | nil => rfl
      | cons capsule rest =>
          exact absurd leftContained.ended
            (not_ends_of_spells (spells_cons.mp rightContained.spelled).1)
  | cons capsule rest inductionHypothesis =>
      cases right with
      | nil =>
          exact absurd rightContained.ended
            (not_ends_of_spells (spells_cons.mp leftContained.spelled).1)
      | cons other others =>
          obtain ⟨leftHead, leftTail⟩ := spells_cons.mp leftContained.spelled
          obtain ⟨rightHead, rightTail⟩ := spells_cons.mp rightContained.spelled
          have headEq := leftHead.capsule_unique rightHead
          subst headEq
          have leftEnded := leftContained.ended
          have rightEnded := rightContained.ended
          rw [totalSize_cons, ← Nat.add_assoc] at leftEnded rightEnded
          rw [inductionHypothesis ⟨leftTail, leftEnded⟩ ⟨rightTail, rightEnded⟩]

/-- Capsules that are spelled are the first of those that are contained. -/
theorem Contains.begins {earlier : List Capsule} (contained : Contains bytes start capsules)
    (spelled : Spells bytes start earlier) : earlier <+: capsules := by
  induction earlier generalizing start capsules with
  | nil => exact List.nil_prefix
  | cons capsule rest inductionHypothesis =>
      obtain ⟨headSpelled, restSpelled⟩ := spells_cons.mp spelled
      cases capsules with
      | nil => exact absurd contained.ended (not_ends_of_spells headSpelled)
      | cons other others =>
          obtain ⟨otherSpelled, othersSpelled⟩ := spells_cons.mp contained.spelled
          have headEq := headSpelled.capsule_unique otherSpelled
          subst headEq
          have ended := contained.ended
          rw [totalSize_cons, ← Nat.add_assoc] at ended
          exact List.cons_prefix_cons.mpr
            ⟨rfl, inductionHypothesis ⟨othersSpelled, ended⟩ restSpelled⟩

theorem Spells.of_begins {earlier : List Capsule} (spelled : Spells bytes start capsules)
    (begins : earlier <+: capsules) : Spells bytes start earlier := by
  obtain ⟨rest, capsulesEq⟩ := begins
  rw [← capsulesEq] at spelled
  exact (spells_append.mp spelled).1

end Places

/-- A record among those of capsules is that of the capsule at its place. -/
theorem exists_split_of_recordsAt {start : Nat} {capsules : List Capsule}
    {before behind : List Record} {record : Record}
    (listed : recordsAt start capsules = before ++ record :: behind) :
    ∃ earlier capsule later, capsules = earlier ++ capsule :: later ∧
      before = recordsAt start earlier ∧
      record = ⟨⟨(start + totalSize earlier).toUInt16⟩, capsule.header⟩ := by
  induction before generalizing start capsules with
  | nil =>
      cases capsules with
      | nil => contradiction
      | cons capsule rest =>
          exact ⟨[], capsule, rest, rfl, rfl, (List.cons.inj listed).1.symm⟩
  | cons first before inductionHypothesis =>
      cases capsules with
      | nil => contradiction
      | cons capsule rest =>
          obtain ⟨headEq, tailEq⟩ := List.cons.inj listed
          obtain ⟨earlier, found, later, restEq, beforeEq, recordEq⟩ := inductionHypothesis tailEq
          refine ⟨capsule :: earlier, found, later, by rw [restEq]; rfl, ?_, ?_⟩
          · rw [recordsAt, headEq, beforeEq]
          · rw [recordEq, totalSize_cons, Nat.add_assoc]

end CodeCapsules.Store
