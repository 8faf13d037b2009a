import CodeCapsules.CommandLine.Rejection
import CodeCapsules.CommandLine.Request
import CodeCapsules.Text.Numeral

/-!
Contract: which arguments there are, and how their values are read.

Owns:
- what has been given so far;
- switches, which have a long name and may have a short one, and parameters,
  which take a value;
- the switches and parameters of each command, and of what stands ahead of it.
-/

namespace CodeCapsules.CommandLine

/-! ## What has been given -/

/-- What has been given on one side of the name of the command. -/
structure Given where
  image : Option String
  config : Option String
  verbose : Bool
  format : Option Format
  capacity : Option UInt32
  origin : Option UInt32
  oddBase : Bool
  force : Bool
  length : Option UInt16
  hash : Option String
  code : Option String
  offset : Option UInt16
  width : Option Nat
deriving DecidableEq, Repr

def Given.nothing : Given :=
  ⟨none, none, false, none, none, none, false, false, none, none, none, none, none⟩

/-! ## Values -/

/-- A path, which is not empty. -/
def readPath (text : String) : Except Rejection String :=
  if text.isEmpty then .error .valueMissing else .ok text

def readFormat (text : String) : Except Rejection Format :=
  match Format.ofText? text with
  | some format => .ok format
  | none => .error .valueUnknown

/-- A decimal number of 64 bits with a sign, which then has to be below
`bound` and not negative. -/
def readBounded (bound : Nat) (text : String) : Except Rejection Nat :=
  match Numeral.readSigned (UInt64.size / 2) text with
  | .error defect => .error (.valueMalformed defect.message)
  | .ok value =>
    if 0 ≤ value ∧ value < bound then .ok value.toNat
    else .error (.valueMalformed s!"{value} is not in 0..={bound - 1}")

def readUInt16 (text : String) : Except Rejection UInt16 := do
  return (← readBounded UInt16.size text).toUInt16

def readUInt32 (text : String) : Except Rejection UInt32 := do
  return (← readBounded UInt32.size text).toUInt32

def readSize (text : String) : Except Rejection Nat :=
  match Numeral.read 10 UInt64.size text with
  | .ok value => .ok value
  | .error defect => .error (.valueMalformed defect.message)

/-- An address of 32 bits, hexadecimal behind `0x` or decimal. -/
def readAddress (text : String) : Except Rejection UInt32 :=
  let read :=
    match text.toList with
    | '0' :: 'x' :: digits | '0' :: 'X' :: digits =>
      Numeral.read 16 UInt32.size (String.ofList digits)
    | _ => Numeral.read 10 UInt32.size text
  match read with
  | .ok value => .ok value.toUInt32
  | .error defect => .error (.valueMalformed s!"invalid address '{text}': {defect.message}")

/-! ## Arguments -/

structure Parameter where
  isGiven : Given → Bool
  take : Given → (text : String) → Except Rejection Given

def Parameter.of {α : Type} (read : String → Except Rejection α) (get : Given → Option α)
    (set : Given → α → Given) : Parameter where
  isGiven given := (get given).isSome
  take given text := do return set given (← read text)

/-- What a switch is good for. -/
inductive Purpose where
  /-- It is on if it is given. -/
  | flag (isGiven : Given → Bool) (give : Given → Given)
  /-- It takes a value. -/
  | parameter (parameter : Parameter)
  /-- It asks for something else than a command. -/
  | answer (rejection : Rejection)

/-- An argument with a name. -/
structure Switch where
  long : String
  short : Option Char
  purpose : Purpose

/-- The arguments that can stand on one side of the name of the command. -/
structure Grammar where
  switches : List Switch
  /-- Arguments without a name, in order. -/
  positions : List Parameter
  /-- Whether the name of a command can follow. -/
  hasCommands : Bool

def sharedSwitches : List Switch :=
  [⟨"image", some 'i', .parameter (.of readPath Given.image fun given image =>
      { given with image := some image })⟩,
    ⟨"config", some 'c', .parameter (.of readPath Given.config fun given config =>
      { given with config := some config })⟩,
    ⟨"verbose", some 'v', .flag Given.verbose fun given => { given with verbose := true }⟩,
    ⟨"format", none, .parameter (.of readFormat Given.format fun given format =>
      { given with format := some format })⟩,
    ⟨"help", some 'h', .answer .helpAsked⟩]

def outerGrammar : Grammar where
  switches := sharedSwitches ++ [⟨"version", some 'V', .answer .versionAsked⟩]
  positions := []
  hasCommands := true

def hashSwitch : Switch :=
  ⟨"hash", none, .parameter (.of .ok Given.hash fun given hash => { given with hash := some hash })⟩

def offsetSwitch : Switch :=
  ⟨"offset", some 'o', .parameter (.of readUInt16 Given.offset fun given offset =>
    { given with offset := some offset })⟩

namespace CommandKind

def ownSwitches : CommandKind → List Switch
  | .init =>
    [⟨"capacity", none, .parameter (.of readUInt32 Given.capacity fun given capacity =>
        { given with capacity := some capacity })⟩,
      ⟨"origin", none, .parameter (.of readAddress Given.origin fun given origin =>
        { given with origin := some origin })⟩,
      ⟨"odd-base", none, .flag Given.oddBase fun given => { given with oddBase := true }⟩,
      ⟨"force", none, .flag Given.force fun given => { given with force := true }⟩]
  | .find =>
    [⟨"length", some 'l', .parameter (.of readUInt16 Given.length fun given length =>
        { given with length := some length })⟩,
      hashSwitch]
  | .append => [hashSwitch]
  | .address => [offsetSwitch]
  | .invoke =>
    [offsetSwitch,
      ⟨"width", some 'w', .parameter (.of readSize Given.width fun given width =>
        { given with width := some width })⟩]
  | .list | .erase => []

/-- The arguments of a command without a name. -/
def positions : CommandKind → List Parameter
  | .append => [.of readPath Given.code fun given code => { given with code := some code }]
  | _ => []

/-- What can stand behind the name of a command. -/
def grammar (kind : CommandKind) : Grammar where
  switches := kind.ownSwitches ++ sharedSwitches
  positions := kind.positions
  hasCommands := false

def command? (kind : CommandKind) (given : Given) : Option Command :=
  match kind with
  | .init => some (.init ⟨given.capacity, given.origin, given.oddBase, given.force⟩)
  | .list => some .list
  | .find => do return .find (← given.length) (← given.hash)
  | .append => do return .append (← given.code) given.hash
  | .address => do return .address (← given.offset)
  | .invoke => do return .invoke (← given.offset) given.width
  | .erase => some .erase

end CommandKind

end CodeCapsules.CommandLine
