import CodeCapsules.Bytes.Basic

/-!
Contract: UTF-8 byte strings as text.

Owns:
- reading one character from the front of a byte string;
- the strict reading, which fails on ill-formed bytes;
- the lossy reading, which puts one replacement character for each maximal
  start of a character that is cut short.
-/

namespace CodeCapsules.Utf8

/-- What the front of a byte string holds. -/
structure Front where
  /-- The character, unless the bytes are ill-formed. -/
  char? : Option Char
  /-- How many bytes it, or the ill-formed start, takes beyond the first. -/
  extra : Nat

/-- The bytes that may follow a leading byte directly, and how many follow in
all; none for a byte that cannot lead. -/
def lead? (byte : UInt8) : Option (UInt8 × UInt8 × Nat) :=
  if 0xC2 ≤ byte ∧ byte ≤ 0xDF then some (0x80, 0xBF, 1)
  else if byte = 0xE0 then some (0xA0, 0xBF, 2)
  else if byte = 0xED then some (0x80, 0x9F, 2)
  else if 0xE1 ≤ byte ∧ byte ≤ 0xEF then some (0x80, 0xBF, 2)
  else if byte = 0xF0 then some (0x90, 0xBF, 3)
  else if 0xF1 ≤ byte ∧ byte ≤ 0xF3 then some (0x80, 0xBF, 3)
  else if byte = 0xF4 then some (0x80, 0x8F, 3)
  else none

/-- Reads up to `count` following bytes, the first of them between `low` and
`high`. `code` is the value so far and `taken` how many have been read. -/
def follow (code taken : Nat) : (count : Nat) → (low high : UInt8) → Bytes → Front
  | 0, _, _, _ => ⟨some (Char.ofNat code), taken⟩
  | _ + 1, _, _, [] => ⟨none, taken⟩
  | count + 1, low, high, byte :: rest =>
    if low ≤ byte ∧ byte ≤ high then
      follow (code * 64 + byte.toNat % 64) (taken + 1) count 0x80 0xBF rest
    else ⟨none, taken⟩

def front (byte : UInt8) (rest : Bytes) : Front :=
  if byte < 0x80 then ⟨some (Char.ofNat byte.toNat), 0⟩
  else
    match lead? byte with
    | none => ⟨none, 0⟩
    | some (low, high, count) =>
      follow (byte.toNat % Nat.pow 2 (6 - count)) 0 count low high rest

/-- The characters of a byte string, with none for each ill-formed start. -/
def pieces : Bytes → List (Option Char)
  | [] => []
  | byte :: rest =>
    let piece := front byte rest
    piece.char? :: pieces (rest.drop piece.extra)
termination_by bytes => bytes.length
decreasing_by simp only [List.length_drop, List.length_cons]; omega

/-- The text of a byte string, if it is well-formed. -/
def decode? (bytes : Bytes) : Option String :=
  ((pieces bytes).mapM id).map String.ofList

/-- The text of a byte string, with replacement characters where it is
ill-formed. -/
def decodeLossy (bytes : Bytes) : String :=
  String.ofList ((pieces bytes).map fun piece => piece.getD (Char.ofNat 0xFFFD))

def encode (text : String) : Bytes := text.toUTF8.toList

end CodeCapsules.Utf8
