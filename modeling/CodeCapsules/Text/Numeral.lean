import CodeCapsules.Bytes.Hex

/-!
Contract: numbers as text.

Owns:
- hexadecimal with a `0x` mark and a least number of digits;
- text moved to the right in a field;
- reading numbers of a bounded range, unsigned in a given base, and decimal
  with a sign.
-/

namespace CodeCapsules.Numeral

/-- The text behind enough copies of `filler` to make it `width` characters
long. -/
def padLeft (filler : Char) (width : Nat) (text : String) : String :=
  String.ofList (List.replicate (width - text.length) filler) ++ text

/-- The number in hexadecimal behind `0x`, with at least `digits` digits. -/
def hex (digits value : Nat) : String := "0x" ++ padLeft '0' digits (Hex.ofNat value)

/-- Why a text is not a number of the range. -/
inductive Defect where
  | empty
  | notDigit
  | tooLarge
  | tooSmall
deriving DecidableEq, Repr

def Defect.message : Defect → String
  | .empty => "cannot parse integer from empty string"
  | .notDigit => "invalid digit found in string"
  | .tooLarge => "number too large to fit in target type"
  | .tooSmall => "number too small to fit in target type"

/-- The value of a digit in a base up to sixteen, in either case. -/
def digitValue? (base : Nat) (char : Char) : Option Nat :=
  let code := char.toNat
  let value? :=
    if 48 ≤ code ∧ code ≤ 57 then some (code - 48)
    else if 97 ≤ code ∧ code ≤ 102 then some (code - 87)
    else if 65 ≤ code ∧ code ≤ 70 then some (code - 55)
    else none
  value?.filter (· < base)

/-- Reads digits behind the value read so far. The first character that is no
digit, or the first digit that takes the value out of range, decides. -/
def readDigits (base bound : Nat) (value : Nat) : List Char → Except Defect Nat
  | [] => .ok value
  | char :: rest =>
    match digitValue? base char with
    | none => .error .notDigit
    | some digit =>
      let next := value * base + digit
      if next < bound then readDigits base bound next rest
      else .error .tooLarge

/-- Reads a number below `bound`, with an optional plus sign. -/
def read (base bound : Nat) (text : String) : Except Defect Nat :=
  match text.toList with
  | [] => .error .empty
  | ['+'] => .error .notDigit
  | '+' :: rest => readDigits base bound 0 rest
  | chars => readDigits base bound 0 chars

/-- Reads a decimal number from `-limit` up to but not including `limit`, with
an optional sign. -/
def readSigned (limit : Nat) (text : String) : Except Defect Int :=
  match text.toList with
  | ['-'] => .error .notDigit
  | '-' :: rest =>
    match readDigits 10 (limit + 1) 0 rest with
    | .ok value => .ok (-value)
    | .error .tooLarge => .error .tooSmall
    | .error defect => .error defect
  | _ => do return (← read 10 limit text : Nat)

end CodeCapsules.Numeral
