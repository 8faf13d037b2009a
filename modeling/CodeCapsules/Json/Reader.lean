import CodeCapsules.Bytes.Hex
import CodeCapsules.Bytes.Utf8
import CodeCapsules.Text.Decimal

/-!
Contract: reading JSON text from the front, one token at a time.

A text is read in one pass, and the first defect decides. What is wrong is
one of three things: the text is not JSON, it ends too early, or it is JSON of
another shape than what is asked for.

Owns:
- the three kinds of defects;
- tokens: words, strings and numbers;
- the commas, colons and brackets between the parts of a value;
- passing over a value that nobody asks for, which is checked less strictly.
-/

namespace CodeCapsules.Json

inductive Defect where
  /-- The text is not JSON. -/
  | malformed
  /-- The text ends inside a value. -/
  | truncated
  /-- The value has not the shape that is asked for. -/
  | mismatched
deriving DecidableEq, Repr

/-- Reads from the front of a UTF-8 text and hands on the rest. -/
abbrev Reader : Type → Type := StateT Bytes (Except Defect)

/-- A number as far as its kind matters. -/
inductive Number where
  | natural (value : Nat)
  /-- A negative integer. -/
  | negative
  /-- A number with a fraction or an exponent, or an integer too large. -/
  | real
deriving DecidableEq, Repr

def isBlank (byte : UInt8) : Bool := byte == 32 || byte == 10 || byte == 9 || byte == 13

def isDigit (byte : UInt8) : Bool := 48 ≤ byte && byte ≤ 57

def peekByte : Reader (Option UInt8) := do return (← get).head?

def nextByte : Reader (Option UInt8) := do
  let bytes ← get
  set bytes.tail
  return bytes.head?

def skipByte : Reader Unit := modify List.tail

/-- Passes over blanks and looks at what follows. -/
def peekToken : Reader (Option UInt8) := do
  modify (·.dropWhile isBlank)
  peekByte

def peekValue : Reader UInt8 := do
  match ← peekToken with
  | some byte => return byte
  | none => throw .truncated

/-- Takes the rest of a word such as `null`. -/
def expectWord : Bytes → Reader Unit
  | [] => return ()
  | letter :: rest => do
    match ← nextByte with
    | none => throw .truncated
    | some byte => if byte = letter then expectWord rest else throw .malformed

/-- What follows `n`, `t` and `f` in the three words. -/
def wordTails : List (UInt8 × Bytes) :=
  [(110, [117, 108, 108]), (116, [114, 117, 101]), (102, [97, 108, 115, 101])]

def hexUnit? (digits : Bytes) : Option Nat := do
  let values ← digits.mapM Hex.value?
  return values.foldl (fun unit value => unit * 16 + value.toNat) 0

/-- The byte that a backslash and a letter stand for. -/
def unescaped? (letter : UInt8) : Option UInt8 :=
  if letter = 34 ∨ letter = 92 ∨ letter = 47 then some letter
  else if letter = 98 then some 8
  else if letter = 102 then some 12
  else if letter = 110 then some 10
  else if letter = 114 then some 13
  else if letter = 116 then some 9
  else none

def takeUnit : Reader Nat := do
  let digits := (← get).take 4
  if digits.length < 4 then throw .truncated
  modify (·.drop 4)
  match hexUnit? digits with
  | some unit => return unit
  | none => throw .malformed

def takeByte : Reader UInt8 := do
  match ← nextByte with
  | some byte => return byte
  | none => throw .truncated

def expectByte (wanted : UInt8) : Reader Unit := do
  if (← takeByte) ≠ wanted then throw .malformed

def charBytes (code : Nat) : Bytes := Utf8.encode (String.singleton (Char.ofNat code))

/-- The character behind a backslash and a `u`. Characters beyond the first
plane are written as two units, and neither may stand alone. -/
def takeEscapedChar : Reader Bytes := do
  let unit ← takeUnit
  if 0xDC00 ≤ unit ∧ unit ≤ 0xDFFF then throw .malformed
  if 0xD800 ≤ unit ∧ unit ≤ 0xDBFF then
    expectByte 92
    expectByte 117
    let low ← takeUnit
    if low < 0xDC00 ∨ 0xDFFF < low then throw .malformed
    return charBytes (0x10000 + (unit - 0xD800) * 1024 + (low - 0xDC00))
  else
    return charBytes unit

inductive StringPart where
  | finished
  | bytes (bytes : Bytes)

/-- One step inside a string. If `strict` is false, escapes are only checked
for their form, and their characters are dropped. -/
def stringPart (strict : Bool) : Reader StringPart := do
  let byte ← takeByte
  if byte = 34 then return .finished
  else if byte = 92 then
    let letter ← takeByte
    if letter = 117 then
      if strict then return .bytes (← takeEscapedChar)
      else
        let _ ← takeUnit
        return .bytes []
    else
      match unescaped? letter with
      | some byte => return .bytes [byte]
      | none => throw .malformed
  else if byte < 32 then throw .malformed
  else return .bytes [byte]

/-- The rest of a string behind the bytes so far, which are kept in reverse.
Each step takes a byte, so a text of `fuel` bytes cannot outlast the fuel. -/
def stringBody (strict : Bool) : (fuel : Nat) → (reversed : Bytes) → Reader Bytes
  | 0, _ => throw .truncated
  | fuel + 1, reversed => do
    match ← stringPart strict with
    | .finished => return reversed.reverse
    | .bytes bytes => stringBody strict fuel (bytes.reverse ++ reversed)

/-- The rest of a string behind its opening quote. -/
def takeString (strict : Bool) : Reader Bytes := do
  stringBody strict ((← get).length + 1) []

def takeDigits : Reader Bytes := do
  let digits := (← get).takeWhile isDigit
  modify (·.dropWhile isDigit)
  return digits

def digitsValue (digits : Bytes) : Nat :=
  digits.foldl (fun value digit => value * 10 + (digit.toNat - 48)) 0

/-- Appends digits to a significand as long as it fits into 64 bits, and counts
those that are left. -/
def extend (significand : Nat) : (digits : Bytes) → Nat × Nat
  | [] => (significand, 0)
  | digit :: rest =>
    let extended := significand * 10 + (digit.toNat - 48)
    if extended < UInt64.size then extend extended rest else (significand, rest.length + 1)

/-- The kind of a number with a fraction or exponent, if a double holds it. -/
def realNumber (significand : Nat) (exponent : Int) : Reader Number := do
  if Decimal.overflowsProduct significand exponent then throw .malformed
  return .real

/-- The digits of an exponent behind its letter, with their sign. -/
def takeExponent : Reader Int := do
  skipByte
  let sign ← peekByte
  if sign = some 43 ∨ sign = some 45 then skipByte
  let first ← takeByte
  if ¬ isDigit first then throw .malformed
  let value := digitsValue (first :: (← takeDigits))
  return if sign = some 45 then -(value : Int) else value

/-- What follows the digits before a point: a fraction, an exponent, or
nothing. Digits that the significand has no room for count as zeros before the
point, and not at all behind it. -/
def takeNumberTail (negative : Bool) (digits : Bytes) : Reader Number := do
  let (significand, zeros) := extend 0 digits
  match ← peekByte with
  | some 46 =>
    skipByte
    let fraction ← takeDigits
    if fraction.isEmpty then throw (if (← get).isEmpty then .truncated else .malformed)
    let (significand, unused) := extend significand fraction
    let scale := (zeros : Int) - (fraction.length - unused : Nat)
    match ← peekByte with
    | some 101 | some 69 => realNumber significand (scale + (← takeExponent))
    | _ => realNumber significand scale
  | some 101 | some 69 => realNumber significand (zeros + (← takeExponent))
  | _ =>
    if 0 < zeros then realNumber significand zeros
    else if ¬ negative then return .natural significand
    else return if significand = 0 ∨ UInt64.size / 2 < significand then .real else .negative

def takeNumber (negative : Bool) : Reader Number := do
  let first ← takeByte
  if first = 48 then
    match ← peekByte with
    | some byte => if isDigit byte then throw .malformed else takeNumberTail negative [48]
    | none => takeNumberTail negative [48]
  else if isDigit first then takeNumberTail negative (first :: (← takeDigits))
  else throw .malformed

def takeSignedNumber : Reader Number := do
  match ← peekByte with
  | some 45 =>
    skipByte
    takeNumber true
  | _ => takeNumber false

def skipDigits : Reader Unit := do
  if (← takeDigits).isEmpty then throw .malformed

def skipExponent : Reader Unit := do
  skipByte
  let sign ← peekByte
  if sign = some 43 ∨ sign = some 45 then skipByte
  skipDigits

/-- Passes over a number behind its sign, whatever its size. A text that ends
inside it is not JSON. -/
def skipNumber : Reader Unit := do
  let digits ← takeDigits
  if digits.isEmpty ∨ (digits.head? = some 48 ∧ 1 < digits.length) then throw .malformed
  if (← peekByte) = some 46 then
    skipByte
    skipDigits
  match ← peekByte with
  | some 101 | some 69 => skipExponent
  | _ => return ()

def expectColon : Reader Unit := do
  match ← peekToken with
  | some 58 => skipByte
  | some _ => throw .malformed
  | none => throw .truncated

/-- Goes to the next item of an array, if there is one. -/
def hasNextItem (first : Bool) : Reader Bool := do
  match ← peekToken with
  | none => throw .truncated
  | some 93 => return false
  | some byte =>
    if first then return true
    else if byte = 44 then
      skipByte
      match ← peekToken with
      | none => throw .truncated
      | some 93 => throw .malformed
      | some _ => return true
    else throw .malformed

/-- Goes to the name of the next member of an object, if there is one. -/
def hasNextMember (first : Bool) : Reader Bool := do
  match ← peekToken with
  | none => throw .truncated
  | some 125 => return false
  | some byte =>
    if first then
      if byte = 34 then return true else throw .malformed
    else if byte = 44 then
      skipByte
      match ← peekToken with
      | none => throw .truncated
      | some 34 => return true
      | some _ => throw .malformed
    else throw .malformed

def expectArrayEnd : Reader Unit := do
  match ← peekToken with
  | none => throw .truncated
  | some 93 => skipByte
  | some _ => throw .malformed

def leaveBracket : Reader Unit := skipByte

mutual

/-- Passes over a value. Each nested value takes a byte, so the length of the
text is fuel enough. -/
def skipValue : (fuel : Nat) → Reader Unit
  | 0 => throw .truncated
  | fuel + 1 => do
    let byte ← peekValue
    match wordTails.lookup byte with
    | some tail =>
      skipByte
      expectWord tail
    | none =>
      if byte = 45 then
        skipByte
        skipNumber
      else if isDigit byte then skipNumber
      else if byte = 34 then
        skipByte
        let _ ← takeString false
      else if byte = 91 then
        skipByte
        skipItems fuel true
      else if byte = 123 then
        skipByte
        skipMembers fuel true
      else throw .malformed

def skipItems : (fuel : Nat) → (first : Bool) → Reader Unit
  | 0, _ => throw .truncated
  | fuel + 1, first => do
    if ← hasNextItem first then
      skipValue fuel
      skipItems fuel false
    else leaveBracket

def skipMembers : (fuel : Nat) → (first : Bool) → Reader Unit
  | 0, _ => throw .truncated
  | fuel + 1, first => do
    if ← hasNextMember first then
      skipByte
      let _ ← takeString false
      expectColon
      skipValue fuel
      skipMembers fuel false
    else leaveBracket

end

/-- Passes over a value that nobody asks for. -/
def ignoreValue : Reader Unit := do skipValue (2 * (← get).length + 2)

/-- Reads past a scalar of the wrong shape, so that a text that is not JSON is
reported as such, and then reports the shape. -/
def mismatch {α : Type} : Reader α := do
  let byte ← peekValue
  match wordTails.lookup byte with
  | some tail =>
    skipByte
    expectWord tail
    throw .mismatched
  | none =>
    if byte = 45 ∨ isDigit byte then
      let _ ← takeSignedNumber
      throw .mismatched
    else if byte = 34 then
      skipByte
      let _ ← takeString true
      throw .mismatched
    else if byte = 91 ∨ byte = 123 then throw .mismatched
    else throw .malformed

/-- Reads a whole text: one value and nothing behind it. -/
def readText {α : Type} (reader : Reader α) (text : String) : Except Defect α := do
  let (value, rest) ← reader.run (Utf8.encode text)
  if (rest.dropWhile isBlank).isEmpty then return value else throw .malformed

end CodeCapsules.Json
