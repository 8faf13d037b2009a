import CodeCapsules.Hash
import CodeCapsules.Proofs.Operation
import Mathlib.Data.List.Basic
import Mathlib.Tactic.IntervalCases

/-!
Contract: the texts that name a hash.

Owns:
- the bytes of a text in terms of its characters;
- `Denotes`, a hexadecimal digit and its value, and `Spells`, digits and the
  bytes that they write;
- `Offends`, the first byte of a text that is no digit;
- `Reads`, what a text comes to once its mark is taken off.

Main statement: every text is read as the grammar says, whether it names a hash
or not, and the written form of a hash names it, with the mark or without.

Does not own: the wording of the reports.
-/

namespace CodeCapsules

/-! ## Characters and bytes -/

namespace Utf8

/-- The character whose code is the byte. -/
def charOf (byte : UInt8) : Char := Char.ofNat byte.toNat

section Bytes

variable {char : Char} {chars : List Char}

theorem toNat_charOf (byte : UInt8) : (charOf byte).toNat = byte.toNat := by
  have small := byte.toNat_lt
  rw [charOf, Char.ofNat, dif_pos (Or.inl (by omega))]
  rfl

theorem charOf_toUInt8 (low : char.toNat < 128) : charOf char.toNat.toUInt8 = char := by
  rw [charOf, UInt8.toNat_ofNat', Nat.mod_eq_of_lt (by omega), Char.ofNat_toNat]

theorem toList_loop (bytes : ByteArray) (index : Nat) (taken : List UInt8) :
    ByteArray.toList.loop bytes index taken = taken.reverse ++ bytes.data.toList.drop index := by
  fun_induction ByteArray.toList.loop bytes index taken with
  | case1 index taken inside inductionHypothesis =>
      have next : bytes.data.toList.drop index =
          bytes.get! index :: bytes.data.toList.drop (index + 1) := by
        rw [List.drop_eq_getElem_cons inside, Array.getElem_toList]
        exact congrArg (· :: _) (getElem!_pos bytes.data index inside).symm
      rw [inductionHypothesis, next, List.reverse_cons, List.append_assoc]
      rfl
  | case2 index taken outside =>
      rw [List.drop_eq_nil_of_le (Nat.le_of_not_lt outside), List.append_nil]

theorem encode_eq_data (text : String) : encode text = text.toUTF8.data.toList :=
  toList_loop text.toUTF8 0 []

theorem length_encode (text : String) : (encode text).length = text.utf8ByteSize := by
  rw [encode_eq_data]
  rfl

/-- A text is encoded character by character. -/
theorem encode_eq (text : String) : encode text = text.toList.flatMap String.utf8EncodeChar := by
  have encoded : text.toUTF8 = text.toList.utf8Encode := String.utf8Encode_toList.symm
  rw [encode_eq_data, encoded]
  exact List.toList_data_toByteArray

theorem encodeChar_of_low (low : char.toNat < 128) :
    String.utf8EncodeChar char = [char.toNat.toUInt8] := by
  have single : char.utf8Size = 1 :=
    Char.utf8Size_eq_one_iff.mpr (UInt32.le_iff_toNat_le.mpr (Nat.le_of_lt_succ low))
  rw [String.utf8EncodeChar_eq_singleton single]
  rfl

/-- The first byte of any other character is no character by itself. -/
theorem encodeChar_of_high (high : 128 ≤ char.toNat) :
    ∃ lead rest, String.utf8EncodeChar char = lead :: rest ∧ 128 ≤ lead.toNat := by
  have large (byte mark : UInt8) (marked : 128 ≤ mark.toNat) : 128 ≤ (byte ||| mark).toNat := by
    rw [UInt8.toNat_or]
    exact Nat.le_trans marked Nat.right_le_or
  rcases Char.utf8Size_eq char with one | two | three | four
  · have low := UInt32.le_iff_toNat_le.mp (Char.utf8Size_eq_one_iff.mp one)
    exact absurd high (Nat.not_le.mpr (Nat.lt_succ_of_le low))
  · exact ⟨_, _, String.utf8EncodeChar_eq_cons_cons two, large _ _ (by decide)⟩
  · exact ⟨_, _, String.utf8EncodeChar_eq_cons_cons_cons three, large _ _ (by decide)⟩
  · exact ⟨_, _, String.utf8EncodeChar_eq_cons_cons_cons_cons four, large _ _ (by decide)⟩

/-- A low byte in front of a text is its first character. -/
theorem flatMap_eq_cons {byte : UInt8} {rest : Bytes} (low : byte.toNat < 128)
    (encoded : chars.flatMap String.utf8EncodeChar = byte :: rest) :
    ∃ others, chars = charOf byte :: others ∧ rest = others.flatMap String.utf8EncodeChar := by
  cases chars with
  | nil => contradiction
  | cons char others =>
      rw [List.flatMap_cons] at encoded
      by_cases charLow : char.toNat < 128
      · rw [encodeChar_of_low charLow, List.singleton_append] at encoded
        obtain ⟨byteEq, restEq⟩ := List.cons.inj encoded
        exact ⟨others, by rw [← byteEq, charOf_toUInt8 charLow], restEq.symm⟩
      · obtain ⟨lead, follow, charEncoded, high⟩ := encodeChar_of_high (Nat.not_lt.mp charLow)
        rw [charEncoded, List.cons_append] at encoded
        rw [(List.cons.inj encoded).1] at high
        omega

theorem map_charOf_of_low (low : ∀ char ∈ chars, char.toNat < 128) :
    (chars.flatMap String.utf8EncodeChar).map charOf = chars := by
  induction chars with
  | nil => rfl
  | cons char rest inductionHypothesis =>
      have charLow := low char List.mem_cons_self
      rw [List.flatMap_cons, encodeChar_of_low charLow, List.singleton_append, List.map_cons,
        charOf_toUInt8 charLow,
        inductionHypothesis fun other member => low other (List.mem_cons_of_mem _ member)]

theorem low_of_bytes (low : ∀ byte ∈ chars.flatMap String.utf8EncodeChar, byte.toNat < 128) :
    ∀ char ∈ chars, char.toNat < 128 := by
  intro char member
  by_contra charHigh
  obtain ⟨lead, follow, charEncoded, high⟩ := encodeChar_of_high (Nat.not_lt.mp charHigh)
  have leadLow := low lead (List.mem_flatMap.mpr ⟨char, member, by
    rw [charEncoded]
    exact List.mem_cons_self⟩)
  omega

end Bytes

end Utf8

/-! ## Digits -/

namespace Hex

open Utf8 (charOf toNat_charOf)

def lowerDigits : List Char :=
  ['0', '1', '2', '3', '4', '5', '6', '7', '8', '9', 'a', 'b', 'c', 'd', 'e', 'f']

def upperDigits : List Char :=
  ['0', '1', '2', '3', '4', '5', '6', '7', '8', '9', 'A', 'B', 'C', 'D', 'E', 'F']

/-- The character is the digit of the value, in either case. -/
def Denotes (char : Char) (value : Nat) : Prop :=
  lowerDigits[value]? = some char ∨ upperDigits[value]? = some char

def IsDigit (char : Char) : Prop := char ∈ lowerDigits ∨ char ∈ upperDigits

instance (char : Char) : Decidable (IsDigit char) := inferInstanceAs (Decidable (_ ∨ _))

/-- Digits that write bytes, two for each, the higher one first. -/
inductive Spells : List Char → Bytes → Prop where
  | nil : Spells [] []
  | cons {high low : Char} {digits : List Char} {byte : UInt8} {bytes : Bytes} :
      Denotes high (byte.toNat / 16) → Denotes low (byte.toNat % 16) → Spells digits bytes →
        Spells (high :: low :: digits) (byte :: bytes)

/-- The byte at the index is the first of the text that is no digit. -/
def Offends (text : Bytes) (byte : UInt8) (index : Nat) : Prop :=
  text[index]? = some byte ∧ ¬IsDigit (charOf byte) ∧
    ∀ earlier < index, ∀ digit, text[earlier]? = some digit → IsDigit (charOf digit)

section Digits

variable {char : Char} {value : Nat}

theorem isDigit_iff : IsDigit char ↔ ∃ value, Denotes char value := by
  unfold IsDigit Denotes
  rw [List.mem_iff_getElem?, List.mem_iff_getElem?, exists_or]

theorem denotes_iff : Denotes char value ↔
    (value < 10 ∧ char.toNat = 48 + value) ∨
      (10 ≤ value ∧ value < 16 ∧ (char.toNat = 87 + value ∨ char.toNat = 55 + value)) := by
  have eq_iff (digit : Char) : some digit = some char ↔ char.toNat = digit.toNat := by
    rw [Option.some.injEq, eq_comm, ← Char.toNat_inj]
  by_cases small : value < 16
  · unfold Denotes lowerDigits upperDigits
    interval_cases value <;> simp [eq_iff]
  · have none (digits : List Char) (length : digits.length = 16) : digits[value]? = none :=
      List.getElem?_eq_none (by omega)
    unfold Denotes
    rw [none lowerDigits rfl, none upperDigits rfl]
    simp
    omega

theorem low_of_isDigit (digit : IsDigit char) : char.toNat < 128 := by
  obtain ⟨value, denotes⟩ := isDigit_iff.mp digit
  have range := denotes_iff.mp denotes
  omega

theorem Denotes.lt (denotes : Denotes char value) : value < 16 := by
  rw [denotes_iff] at denotes
  omega

theorem Denotes.unique {other : Nat} (denotes : Denotes char value)
    (likewise : Denotes char other) : value = other := by
  rw [denotes_iff] at denotes likewise
  omega

/-- A value is read from a byte exactly if the byte is its digit. -/
theorem value?_eq_some_iff {byte read : UInt8} :
    value? byte = some read ↔ Denotes (charOf byte) read.toNat := by
  have sub_iff (least : UInt8) (number : Nat) (leastEq : least.toNat = number)
      (numberLe : number ≤ byte.toNat) :
      some (byte - least) = some read ↔ byte.toNat - number = read.toNat := by
    have leastLe : least ≤ byte := UInt8.le_iff_toNat_le.mpr (by omega)
    rw [Option.some.injEq, ← UInt8.toNat_inj, UInt8.toNat_sub_of_le _ _ leastLe, leastEq]
  rw [denotes_iff, toNat_charOf]
  simp only [value?, UInt8.le_iff_toNat_le, UInt8.reduceToNat]
  split
  · rw [sub_iff 48 48 rfl (by omega)]
    omega
  · split
    · rw [sub_iff 55 55 rfl (by omega)]
      omega
    · split
      · rw [sub_iff 87 87 rfl (by omega)]
        omega
      · simp only [reduceCtorEq, false_iff]
        omega

theorem valueAt_of_isDigit {byte : UInt8} (digit : IsDigit (charOf byte)) (index : Nat) :
    ∃ read, valueAt byte index = .ok read ∧ Denotes (charOf byte) read.toNat := by
  obtain ⟨value, denotes⟩ := isDigit_iff.mp digit
  have small := denotes.lt
  have valueEq : value.toUInt8.toNat = value := by
    rw [UInt8.toNat_ofNat', Nat.mod_eq_of_lt (by omega)]
  have denoted : Denotes (charOf byte) value.toUInt8.toNat := by rwa [valueEq]
  refine ⟨value.toUInt8, ?_, denoted⟩
  rw [valueAt, value?_eq_some_iff.mpr denoted]

theorem valueAt_of_not_isDigit {byte : UInt8} (other : ¬IsDigit (charOf byte)) (index : Nat) :
    valueAt byte index = .error (.notDigit byte index) := by
  have unread : value? byte = none := by
    cases read : value? byte with
    | none => rfl
    | some value => exact absurd (isDigit_iff.mpr ⟨_, value?_eq_some_iff.mp read⟩) other
  rw [valueAt, unread]

end Digits

/-! ## Digits in pairs -/

section Pairs

variable {digits : List Char} {text bytes others : Bytes} {byte head : UInt8} {index place : Nat}

theorem Spells.length_eq (spells : Spells digits bytes) : digits.length = 2 * bytes.length := by
  induction spells with
  | nil => rfl
  | cons _ _ _ inductionHypothesis =>
      simp only [List.length_cons, inductionHypothesis]
      omega

theorem Spells.isDigit (spells : Spells digits bytes) : ∀ char ∈ digits, IsDigit char := by
  induction spells with
  | nil => simp
  | cons high low _ inductionHypothesis =>
      simp only [List.forall_mem_cons]
      exact ⟨isDigit_iff.mpr ⟨_, high⟩, isDigit_iff.mpr ⟨_, low⟩, inductionHypothesis⟩

/-- Digits write one byte string at most. -/
theorem Spells.unique (spells : Spells digits bytes) (likewise : Spells digits others) :
    bytes = others := by
  induction spells generalizing others with
  | nil => cases likewise; rfl
  | cons high low _ inductionHypothesis =>
      cases likewise with
      | cons otherHigh otherLow otherRest =>
          rw [inductionHypothesis otherRest]
          congr 1
          apply UInt8.toNat_inj.mp
          have highEq := high.unique otherHigh
          have lowEq := low.unique otherLow
          omega

theorem not_offends_nil : ¬Offends [] byte index := fun offends => nomatch offends.1

theorem offends_cons : Offends (head :: text) byte index ↔
    (index = 0 ∧ byte = head ∧ ¬IsDigit (charOf head)) ∨
      (IsDigit (charOf head) ∧ ∃ place, index = place + 1 ∧ Offends text byte place) := by
  constructor
  · rintro ⟨found, other, before⟩
    cases index with
    | zero =>
        obtain rfl := Option.some.inj found
        exact .inl ⟨rfl, rfl, other⟩
    | succ place =>
        refine .inr ⟨before 0 (Nat.succ_pos _) head rfl, place, rfl, found, other, ?_⟩
        intro earlier earlierLt digit present
        exact before (earlier + 1) (Nat.succ_lt_succ earlierLt) digit present
  · rintro (⟨rfl, rfl, other⟩ | ⟨headDigit, place, rfl, found, other, before⟩)
    · exact ⟨rfl, other, fun earlier earlierLt => absurd earlierLt (Nat.not_lt_zero _)⟩
    · refine ⟨found, other, ?_⟩
      intro earlier earlierLt digit present
      cases earlier with
      | zero =>
          rw [← Option.some.inj present]
          exact headDigit
      | succ earlier => exact before earlier (Nat.lt_of_succ_lt_succ earlierLt) digit present

theorem digits_or_offends (text : Bytes) :
    (∀ byte ∈ text, IsDigit (charOf byte)) ∨ ∃ byte index, Offends text byte index := by
  induction text with
  | nil => exact .inl (by simp)
  | cons head rest inductionHypothesis =>
      by_cases digit : IsDigit (charOf head)
      · rcases inductionHypothesis with digits | ⟨byte, index, offends⟩
        · exact .inl (List.forall_mem_cons.mpr ⟨digit, digits⟩)
        · exact .inr ⟨byte, index + 1, offends_cons.mpr (.inr ⟨digit, index, rfl, offends⟩)⟩
      · exact .inr ⟨head, 0, offends_cons.mpr (.inl ⟨rfl, rfl, digit⟩)⟩

theorem toNat_pair {high low : UInt8} (highLt : high.toNat < 16) (lowLt : low.toNat < 16) :
    (high * 16 + low).toNat = high.toNat * 16 + low.toNat := by
  simp only [UInt8.toNat_add, UInt8.toNat_mul, UInt8.reduceToNat]
  omega

theorem decodeFrom_of_digits (digits : ∀ byte ∈ text, IsDigit (charOf byte))
    (even : text.length % 2 = 0) :
    ∃ bytes, decodeFrom index text = .ok bytes ∧ Spells (text.map charOf) bytes := by
  induction index, text using decodeFrom.induct with
  | case1 index => exact ⟨[], rfl, .nil⟩
  | case2 index byte => contradiction
  | case3 index high low rest inductionHypothesis =>
      simp only [List.forall_mem_cons] at digits
      simp only [List.length_cons] at even
      obtain ⟨highDigit, lowDigit, restDigits⟩ := digits
      obtain ⟨highValue, highRead, highDenotes⟩ := valueAt_of_isDigit highDigit index
      obtain ⟨lowValue, lowRead, lowDenotes⟩ := valueAt_of_isDigit lowDigit (index + 1)
      obtain ⟨bytes, decoded, spells⟩ := inductionHypothesis restDigits (by omega)
      have highLt := highDenotes.lt
      have lowLt := lowDenotes.lt
      have pair := toNat_pair highLt lowLt
      refine ⟨(highValue * 16 + lowValue) :: bytes, ?_, .cons ?_ ?_ spells⟩
      · rw [decodeFrom, highRead, Outcome.bind_ok, lowRead, Outcome.bind_ok, decoded]
        rfl
      · rwa [pair, show (highValue.toNat * 16 + lowValue.toNat) / 16 = highValue.toNat by omega]
      · rwa [pair, show (highValue.toNat * 16 + lowValue.toNat) % 16 = lowValue.toNat by omega]

theorem decodeFrom_of_offends (offends : Offends text byte place) (even : text.length % 2 = 0) :
    decodeFrom index text = .error (.notDigit byte (index + place)) := by
  induction index, text using decodeFrom.induct generalizing place with
  | case1 index => exact absurd offends not_offends_nil
  | case2 index byte => contradiction
  | case3 index high low rest inductionHypothesis =>
      simp only [List.length_cons] at even
      rw [decodeFrom]
      rcases offends_cons.mp offends with ⟨rfl, rfl, other⟩ | ⟨highDigit, next, rfl, lowOffends⟩
      · rw [valueAt_of_not_isDigit other]
        rfl
      obtain ⟨highValue, highRead, -⟩ := valueAt_of_isDigit highDigit index
      rw [highRead, Outcome.bind_ok]
      rcases offends_cons.mp lowOffends with ⟨rfl, rfl, other⟩ | ⟨lowDigit, place, rfl, restOffends⟩
      · rw [valueAt_of_not_isDigit other]
        rfl
      obtain ⟨lowValue, lowRead, -⟩ := valueAt_of_isDigit lowDigit (index + 1)
      rw [lowRead, Outcome.bind_ok, inductionHypothesis restOffends (by omega), Outcome.bind_error]
      congr 2
      omega

theorem denotes_digit {value : Nat} (small : value < 16) : Denotes (digit value) value := by
  interval_cases value <;> exact .inl rfl

/-- The written form of bytes writes them. -/
theorem spells_encode (bytes : Bytes) : Spells (encode bytes).toList bytes := by
  rw [encode, String.toList_ofList]
  induction bytes with
  | nil => exact .nil
  | cons byte rest inductionHypothesis =>
      have small := byte.toNat_lt
      exact .cons (denotes_digit (by omega)) (denotes_digit (by omega)) inductionHypothesis

end Pairs

section Text

variable {text : String}

theorem map_charOf_of_digits (digits : ∀ char ∈ text.toList, IsDigit char) :
    (Utf8.encode text).map charOf = text.toList := by
  rw [Utf8.encode_eq]
  exact Utf8.map_charOf_of_low fun char member => low_of_isDigit (digits char member)

/-- A text has digits only exactly if its bytes are digits. -/
theorem forall_isDigit_iff : (∀ char ∈ text.toList, IsDigit char) ↔
    ∀ byte ∈ Utf8.encode text, IsDigit (charOf byte) := by
  constructor
  · intro digits byte member
    apply digits
    rw [← map_charOf_of_digits digits]
    exact List.mem_map_of_mem member
  · intro digits char member
    have low : ∀ byte ∈ text.toList.flatMap String.utf8EncodeChar, byte.toNat < 128 := by
      intro byte present
      rw [← Utf8.encode_eq] at present
      rw [← toNat_charOf]
      exact low_of_isDigit (digits byte present)
    rw [← Utf8.map_charOf_of_low (Utf8.low_of_bytes low), ← Utf8.encode_eq] at member
    obtain ⟨byte, present, rfl⟩ := List.mem_map.mp member
    exact digits byte present

theorem utf8ByteSize_of_digits (digits : ∀ char ∈ text.toList, IsDigit char) :
    text.utf8ByteSize = text.length := by
  rw [← Utf8.length_encode, ← List.length_map charOf, map_charOf_of_digits digits,
    String.length_toList]

theorem decode_of_digits (digits : ∀ char ∈ text.toList, IsDigit char)
    (even : text.length % 2 = 0) :
    ∃ bytes, decode (Utf8.encode text) = .ok bytes ∧ Spells text.toList bytes := by
  have evenBytes : (Utf8.encode text).length % 2 = 0 := by
    rw [Utf8.length_encode, utf8ByteSize_of_digits digits, even]
  rw [decode, if_neg (by omega), ← map_charOf_of_digits digits]
  exact decodeFrom_of_digits (forall_isDigit_iff.mp digits) evenBytes

end Text

end Hex

/-! ## Texts of hashes -/

namespace Hash

open Hex (IsDigit Offends Spells)
open Utf8 (charOf encode)

/-- The text without one leading `0x`. -/
def bare (text : String) : String :=
  match text.toList with
  | '0' :: 'x' :: rest => String.ofList rest
  | _ => text

/-- What a text without a mark comes to. -/
inductive Reads (text : String) : Except ValueError Hash → Prop where
  | hash {hash : Hash} :
      text.length = 8 → Spells text.toList hash.toBytes → Reads text (.ok hash)
  | odd : text.utf8ByteSize % 2 = 1 → Reads text (.error (.invalidHex .oddLength))
  | offending {byte : UInt8} {index : Nat} :
      text.utf8ByteSize % 2 = 0 → Offends (encode text) byte index →
        Reads text (.error (.invalidHex (.notDigit byte index)))
  | misfitting :
      (∀ char ∈ text.toList, IsDigit char) → text.length % 2 = 0 → text.length ≠ 8 →
        Reads text (.error (.invalidLength 4 (text.length / 2)))

variable {text : String} {hash : Hash}

theorem bare_of_mark (rest : String) : bare ("0x" ++ rest) = rest := by
  have chars : ("0x" ++ rest).toList = '0' :: 'x' :: rest.toList := by
    rw [String.toList_append]
    rfl
  rw [bare, chars]
  exact String.ofList_toList

theorem bare_of_digits (digits : ∀ char ∈ text.toList, IsDigit char) : bare text = text := by
  unfold bare
  split
  · rename_i rest chars
    rw [chars] at digits
    exact absurd (digits 'x' (by simp)) (by decide)
  · rfl

theorem encode_bare (text : String) : encode (bare text) = withoutMark (encode text) := by
  have zero : charOf 0x30 = '0' := rfl
  have mark : charOf 0x78 = 'x' := rfl
  unfold bare
  split
  · rename_i rest chars
    rw [Utf8.encode_eq, Utf8.encode_eq, chars, String.toList_ofList]
    rfl
  · rename_i unmarked
    unfold withoutMark
    split
    -- No other text has the two bytes of the mark in front.
    · rename_i rest encoded
      rw [Utf8.encode_eq] at encoded
      obtain ⟨others, chars, followed⟩ := Utf8.flatMap_eq_cons (by decide) encoded
      obtain ⟨rest, otherChars, -⟩ := Utf8.flatMap_eq_cons (by decide) followed.symm
      rw [otherChars, zero, mark] at chars
      exact absurd chars (unmarked rest)
    · rfl

theorem ofHex_eq (text : String) :
    ofHex text = (Hex.decode (encode (bare text))).mapError .invalidHex >>= ofBytes := by
  rw [encode_bare]
  rfl

theorem exists_toBytes {bytes : Bytes} (sized : bytes.length = 4) :
    ∃ hash : Hash, bytes = hash.toBytes := by
  rcases bytes with _ | ⟨first, rest⟩
  · contradiction
  · obtain ⟨second, third, fourth, rfl⟩ := List.length_eq_three.mp (Nat.succ.inj sized)
    exact ⟨⟨first, second, third, fourth⟩, rfl⟩

theorem ofBytes_of_length {bytes : Bytes} (sized : bytes.length ≠ 4) :
    ofBytes bytes = .error (.invalidLength 4 bytes.length) := by
  unfold ofBytes
  split
  · exact absurd rfl sized
  · rfl

/-- Every text is a hash or has one of the defects. -/
theorem exists_reads (text : String) : ∃ answer, Reads text answer := by
  rcases Nat.mod_two_eq_zero_or_one text.utf8ByteSize with even | odd
  · rcases Hex.digits_or_offends (encode text) with digits | ⟨byte, index, offends⟩
    · rw [← Hex.forall_isDigit_iff] at digits
      rw [Hex.utf8ByteSize_of_digits digits] at even
      by_cases eight : text.length = 8
      · obtain ⟨bytes, -, spells⟩ := Hex.decode_of_digits digits even
        have lengthEq := spells.length_eq
        rw [String.length_toList] at lengthEq
        obtain ⟨hash, rfl⟩ := exists_toBytes (show bytes.length = 4 by omega)
        exact ⟨_, .hash eight spells⟩
      · exact ⟨_, .misfitting digits even eight⟩
    · exact ⟨_, .offending even offends⟩
  · exact ⟨_, .odd odd⟩

/-- A text that has an answer is given it. -/
theorem ofHex_of_reads {answer : Except ValueError Hash} (reads : Reads (bare text) answer) :
    ofHex text = answer := by
  rw [ofHex_eq]
  cases reads with
  | hash eight spells =>
      obtain ⟨bytes, decoded, likewise⟩ := Hex.decode_of_digits spells.isDigit (by omega)
      rw [decoded, likewise.unique spells]
      rfl
  | odd odd =>
      rw [Hex.decode, if_pos (by rw [Utf8.length_encode, odd])]
      rfl
  | offending even offends =>
      rw [← Utf8.length_encode] at even
      rw [Hex.decode, if_neg (by omega), Hex.decodeFrom_of_offends offends even, Nat.zero_add]
      rfl
  | misfitting digits even misfits =>
      obtain ⟨bytes, decoded, spells⟩ := Hex.decode_of_digits digits even
      have lengthEq := spells.length_eq
      rw [String.length_toList] at lengthEq
      rw [decoded, lengthEq, Nat.mul_div_cancel_left _ (by decide)]
      exact ofBytes_of_length (by omega)

theorem reads_toHex (hash : Hash) : Reads hash.toHex (.ok hash) := by
  have spells : Spells hash.toHex.toList hash.toBytes := Hex.spells_encode hash.toBytes
  refine .hash ?_ spells
  rw [← String.length_toList, spells.length_eq]
  rfl

/-- A text is read as the grammar says, and the written form of a hash is read
as that hash, with the mark or without. -/
theorem texts_are_read_by_the_grammar :
    (∀ (text : String) (answer : Except ValueError Hash),
      ofHex text = answer ↔ Reads (bare text) answer) ∧
    ∀ hash : Hash, ofHex hash.toHex = .ok hash ∧ ofHex ("0x" ++ hash.toHex) = .ok hash := by
  refine ⟨?_, ?_⟩
  · intro text answer
    constructor
    · rintro rfl
      obtain ⟨answer, reads⟩ := exists_reads (bare text)
      rwa [ofHex_of_reads reads]
    · exact ofHex_of_reads
  · intro hash
    have digits : ∀ char ∈ hash.toHex.toList, IsDigit char :=
      (Hex.spells_encode hash.toBytes).isDigit
    refine ⟨ofHex_of_reads ?_, ofHex_of_reads ?_⟩
    · rw [bare_of_digits digits]
      exact reads_toHex hash
    · rw [bare_of_mark]
      exact reads_toHex hash

end Hash

end CodeCapsules
