import CodeCapsules.Text.Decimal
import CodeCapsules.Toml.Node

/-!
Contract: reading numbers, dates and times from TOML text.

Owns:
- integers in four bases, with underscores between digits, in the range of 64
  bits with a sign;
- numbers with a fraction or an exponent, which no double may exceed upwards;
- dates, times, and dates with times.
-/

namespace CodeCapsules.Toml

/-! ## Numbers -/

def isDigitOf (base : Nat) (char : Char) : Bool := (Numeral.digitValue? base char).isSome

/-- Takes digits behind the first, with single underscores between them. -/
def takeMoreDigits (base : Nat) : (fuel : Nat) → Reader (List Char)
  | 0 => failure
  | fuel + 1 => do
    match ← peekChar with
    | some '_' =>
      expectChar '_'
      let digit ← takeIf (isDigitOf base)
      return digit :: (← takeMoreDigits base fuel)
    | some char =>
      if isDigitOf base char then
        let digit ← takeChar
        return digit :: (← takeMoreDigits base fuel)
      else return []
    | none => return []

/-- Takes digits with single underscores between them. -/
def takeDigits (base : Nat) : Reader (List Char) := do
  let first ← takeIf (isDigitOf base)
  return first :: (← takeMoreDigits base ((← get).length + 1))

def digitsValue (base : Nat) (digits : List Char) : Nat :=
  digits.foldl (fun value digit => value * base + (Numeral.digitValue? base digit).getD 0) 0

/-- Takes a sign, and says whether it is a minus. -/
def takeSign : Reader Bool := do
  match ← peekChar with
  | some '-' =>
    expectChar '-'
    return true
  | some '+' =>
    expectChar '+'
    return false
  | _ => return false

/-- Takes decimal digits that start with a zero only if there are no others. -/
def takeWhole : Reader (List Char) := do
  if (← peekChar) = some '0' then return [← takeChar] else takeDigits 10

/-- An integer in the range of 64 bits with a sign. -/
def integer? (value : Int) : Option Node :=
  if -9223372036854775808 ≤ value ∧ value < 9223372036854775808 then some (.integer value) else none

def takeMarked (mark : String) (base : Nat) : Reader Node := do
  expectWord mark
  integer? (digitsValue base (← takeDigits base))

def takeDecimal : Reader Node := do
  let negative ← takeSign
  let value : Int := digitsValue 10 (← takeWhole)
  integer? (if negative then -value else value)

def takeFraction : Reader (List Char) := do
  expectChar '.'
  takeDigits 10

def takeExponent : Reader Int := do
  let _ ← takeIf fun char => char == 'e' || char == 'E'
  let negative ← takeSign
  let value : Int := digitsValue 10 (← takeDigits 10)
  return if negative then -value else value

/-- Takes a number with a fraction, an exponent, or both. -/
def takeReal : Reader Node := do
  let negative ← takeSign
  let whole ← takeWhole
  let fraction ← whenPresent takeFraction
  let exponent ← whenPresent takeExponent
  if fraction.isNone ∧ exponent.isNone then failure
  let places := fraction.getD []
  let significand := digitsValue 10 (whole ++ places)
  let overflows := Decimal.overflowsDouble significand (exponent.getD 0 - places.length)
  if overflows ∧ ¬ negative then failure
  return .real

/-- Takes one of the words for values that are no numbers. -/
def takeSpecial : Reader Node := do
  let _ ← takeSign
  expectWord "inf" <|> expectWord "nan"
  return .real

/-! ## Dates and times -/

/-- Takes exactly `count` digits, whose number lies in a range. -/
def takeField (count low high : Nat) : Reader Nat := do
  let digits := (← get).take count
  modify (·.drop count)
  if digits.length < count ∨ ¬ digits.all (isDigitOf 10) then failure
  let value := digitsValue 10 digits
  if low ≤ value ∧ value ≤ high then return value else failure

def isLeapYear (year : Nat) : Bool :=
  year % 4 = 0 ∧ (year % 100 ≠ 0 ∨ year % 400 = 0)

def daysInMonth (year month : Nat) : Nat :=
  if month = 2 then if isLeapYear year then 29 else 28
  else if month ∈ [4, 6, 9, 11] then 30
  else 31

def takeDate : Reader Unit := do
  let year ← takeField 4 0 9999
  expectChar '-'
  let month ← takeField 2 1 12
  expectChar '-'
  let _ ← takeField 2 1 (daysInMonth year month)

def takeSecondFraction : Reader Unit := do
  expectChar '.'
  let _ ← takeIf (isDigitOf 10)
  let _ ← takeWhile (isDigitOf 10)

def takeTime : Reader Unit := do
  let _ ← takeField 2 0 23
  expectChar ':'
  let _ ← takeField 2 0 59
  expectChar ':'
  let _ ← takeField 2 0 60
  let _ ← whenPresent takeSecondFraction

/-- Takes the distance of a local time from the common one. -/
def takeZone : Reader Unit := do
  match ← takeChar with
  | 'Z' | 'z' => return ()
  | '+' | '-' =>
    let _ ← takeField 2 0 23
    expectChar ':'
    let _ ← takeField 2 0 59
  | _ => failure

def takeTimeOfDate : Reader Unit := do
  let _ ← takeIf fun char => char == 'T' || char == 't' || char == ' '
  takeTime
  let _ ← whenPresent takeZone

def takeMoment : Reader Node :=
  (do takeDate; let _ ← whenPresent takeTimeOfDate; return .moment) <|>
    (do takeTime; return .moment)

/-- Takes a number, a date or a time. Of several that begin alike the one that
reaches further comes first. -/
def takeNumber : Reader Node :=
  takeMoment <|> takeReal <|> takeSpecial <|> takeMarked "0x" 16 <|> takeMarked "0o" 8 <|>
    takeMarked "0b" 2 <|> takeDecimal

end CodeCapsules.Toml
