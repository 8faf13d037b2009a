import CodeCapsules.Bytes.Basic

/-!
Contract: byte strings as hexadecimal text, two digits a byte.

Owns:
- the written form, in lower case;
- reading either case, and the causes for which a text is not read;
- the quoted form of a byte that is no digit.
-/

namespace CodeCapsules.Hex

/-- The lower-case digit for a value below sixteen. -/
def digit (value : Nat) : Char :=
  if value < 10 then Char.ofNat (48 + value) else Char.ofNat (87 + value)

def ofByte (byte : UInt8) : List Char := [digit (byte.toNat / 16), digit (byte.toNat % 16)]

def encode (bytes : Bytes) : String := String.ofList (bytes.flatMap ofByte)

/-- The value of a byte that is a hexadecimal digit in either case. -/
def value? (byte : UInt8) : Option UInt8 :=
  if 48 ≤ byte ∧ byte ≤ 57 then some (byte - 48)
  else if 65 ≤ byte ∧ byte ≤ 70 then some (byte - 55)
  else if 97 ≤ byte ∧ byte ≤ 102 then some (byte - 87)
  else none

/-- Why a text is not hexadecimal. -/
inductive Defect where
  /-- The number of digits is odd. -/
  | oddLength
  /-- The byte at `index` is no digit. -/
  | notDigit (byte : UInt8) (index : Nat)
deriving DecidableEq, Repr

def valueAt (byte : UInt8) (index : Nat) : Except Defect UInt8 :=
  match value? byte with
  | some value => .ok value
  | none => .error (.notDigit byte index)

/-- Reads digits in pairs; `index` is the position of the first of them. -/
def decodeFrom (index : Nat) : Bytes → Except Defect Bytes
  | [] => .ok []
  | [_] => .error .oddLength
  | high :: low :: rest => do
    let highValue ← valueAt high index
    let lowValue ← valueAt low (index + 1)
    let tail ← decodeFrom (index + 2) rest
    return (highValue * 16 + lowValue) :: tail

/-- Reads the UTF-8 bytes of a text. An odd length is reported before any
byte that is no digit. -/
def decode (text : Bytes) : Except Defect Bytes :=
  if text.length % 2 = 1 then .error .oddLength else decodeFrom 0 text

/-- The digits of a number, without leading zeros. -/
def ofNat (value : Nat) : String := String.ofList (Nat.toDigits 16 value)

/-- The character with this code between single quotes. Characters that
would not show, and the quote and the backslash, are escaped. -/
def quotedByte (byte : UInt8) : String :=
  let inner :=
    if byte = 0 then "\\0"
    else if byte = 9 then "\\t"
    else if byte = 10 then "\\n"
    else if byte = 13 then "\\r"
    else if byte = 39 then "\\'"
    else if byte = 92 then "\\\\"
    else if byte < 32 ∨ (127 ≤ byte ∧ byte ≤ 160) ∨ byte = 173 then
      "\\u\x7b" ++ ofNat byte.toNat ++ "\x7d"
    else String.singleton (Char.ofNat byte.toNat)
  "'" ++ inner ++ "'"

def Defect.message : Defect → String
  | .oddLength => "Odd number of digits"
  | .notDigit byte index => s!"Invalid character {quotedByte byte} at position {index}"

end CodeCapsules.Hex
