import CodeCapsules.Text.Numeral

/-!
Contract: reading the words of TOML text from the front.

A reader either takes a part from the front and hands on the rest, or it
refuses, and then another reader may try the same text.

Owns:
- blanks, comments and the ends of lines;
- keys, bare, quoted and dotted;
- texts between quotes, on one line and on several.
-/

namespace CodeCapsules.Toml

/-- Takes a part from the front of a text, or refuses. -/
abbrev Reader : Type → Type := StateT (List Char) Option

/-- The mark around texts with escapes. -/
def quotationMark : Char := '"'

/-- The mark around texts without escapes. -/
def apostrophe : Char := '\''

/-- The mark that starts an escape. -/
def backslash : Char := '\\'

def peekChar : Reader (Option Char) := do return (← get).head?

def takeChar : Reader Char := do
  match ← get with
  | [] => failure
  | char :: rest =>
    set rest
    return char

def takeIf (accepts : Char → Bool) : Reader Char := do
  let char ← takeChar
  if accepts char then return char else failure

def expectChar (wanted : Char) : Reader Unit := do
  let _ ← takeIf (· == wanted)

def expectWord (wanted : String) : Reader Unit := wanted.toList.forM expectChar

def takeWhile (accepts : Char → Bool) : Reader (List Char) := do
  let text ← get
  set (text.dropWhile accepts)
  return text.takeWhile accepts

def whenPresent {α : Type} (reader : Reader α) : Reader (Option α) :=
  (do return some (← reader)) <|> pure none

/-! ## Between the values -/

/-- A blank inside a line. -/
def isBlank (char : Char) : Bool := char == ' ' || char == '\t'

/-- A character that a comment or a text may hold as it is. -/
def isPlain (char : Char) : Bool :=
  char == '\t' || (32 ≤ char.toNat && char.toNat ≠ 127)

def skipBlanks : Reader Unit := do
  let _ ← takeWhile isBlank

def takeLineEnd : Reader Unit := expectChar '\n' <|> expectWord "\r\n"

def takeComment : Reader Unit := do
  expectChar '#'
  let _ ← takeWhile isPlain

/-- Takes the end of a line or of the text. -/
def takeEnd : Reader Unit := do
  if (← get).isEmpty then return () else takeLineEnd

/-- Passes over what may follow a definition on its line. -/
def finishLine : Reader Unit := do
  skipBlanks
  let _ ← whenPresent takeComment
  takeEnd

/-- Passes over blanks, comments and ends of lines, of which each takes a
character. -/
def skipLines : (fuel : Nat) → Reader Unit
  | 0 => failure
  | fuel + 1 => do
    skipBlanks
    match ← peekChar with
    | some '#' =>
      takeComment
      takeLineEnd
      skipLines fuel
    | some '\n' | some '\r' =>
      takeLineEnd
      skipLines fuel
    | _ => return ()

/-- Passes over all that may stand between the items of an array. -/
def skipSpace : Reader Unit := do skipLines ((← get).length + 1)

/-! ## Texts -/

/-- The character that a backslash and a letter stand for. -/
def unescaped? : Char → Option Char
  | 'b' => some '\x08'
  | 't' => some '\t'
  | 'n' => some '\n'
  | 'f' => some '\x0c'
  | 'r' => some '\r'
  | '"' => some quotationMark
  | '\\' => some backslash
  | _ => none

def charOfCode? (code : Nat) : Option Char :=
  if code.isValidChar then some (Char.ofNat code) else none

/-- Takes the code of a character in `digits` hexadecimal digits. -/
def takeCode (digits : Nat) : Reader Char := do
  let text := (← get).take digits
  modify (·.drop digits)
  if text.length < digits then failure
  match text.mapM (Numeral.digitValue? 16) with
  | none => failure
  | some values => charOfCode? (values.foldl (fun code value => code * 16 + value) 0)

def takeEscape : Reader Char := do
  match ← takeChar with
  | 'u' => takeCode 4
  | 'U' => takeCode 8
  | letter => unescaped? letter

/-- Takes the rest of a text on one line with its closing mark. Each character
of the text takes one of the fuel. -/
def takeShortBody (mark : Char) (escapes : Bool) : (fuel : Nat) → Reader (List Char)
  | 0 => failure
  | fuel + 1 => do
    let char ← takeChar
    if char = mark then return []
    else if char = backslash ∧ escapes then
      let meant ← takeEscape
      return meant :: (← takeShortBody mark escapes fuel)
    else if isPlain char then return char :: (← takeShortBody mark escapes fuel)
    else failure

def takeShortText (mark : Char) (escapes : Bool) : Reader String := do
  expectChar mark
  return String.ofList (← takeShortBody mark escapes ((← get).length + 1))

/-- Passes over blanks and ends of lines, of which each takes a character. -/
def skipBlankLines : (fuel : Nat) → Reader Unit
  | 0 => failure
  | fuel + 1 => do
    skipBlanks
    if (← whenPresent takeLineEnd).isSome then skipBlankLines fuel

/-- Takes a backslash at the end of a line with all blanks and ends of lines
that follow, which stand for nothing. -/
def takeJoint : Reader Unit := do
  expectChar backslash
  skipBlanks
  takeLineEnd
  skipBlankLines ((← get).length + 1)

/-- Takes one part of a text on several lines that is no mark. -/
def takeLongPart (escapes : Bool) : Reader (List Char) := do
  match ← peekChar with
  | none => failure
  | some char =>
    if char = backslash ∧ escapes then
      (do takeJoint; return []) <|> (do expectChar backslash; return [← takeEscape])
    else if char = '\n' ∨ char = '\r' then
      takeLineEnd
      return ['\n']
    else return [← takeIf isPlain]

/-- Takes the rest of a text on several lines with its three closing marks.
Up to two marks ahead of them belong to the text. -/
def takeLongBody (mark : Char) (escapes : Bool) : (fuel : Nat) → Reader (List Char)
  | 0 => failure
  | fuel + 1 => do
    let marks := (← get).takeWhile (· == mark)
    if 3 ≤ marks.length then
      let kept := marks.take (min (marks.length - 3) 2)
      modify (·.drop (kept.length + 3))
      return kept
    else if marks.isEmpty then
      let part ← takeLongPart escapes
      return part ++ (← takeLongBody mark escapes fuel)
    else
      modify (·.drop marks.length)
      return marks ++ (← takeLongBody mark escapes fuel)

/-- Takes a text on several lines. An end of line right behind the opening
marks does not belong to it. -/
def takeLongText (mark : Char) (escapes : Bool) : Reader String := do
  [mark, mark, mark].forM expectChar
  let _ ← whenPresent takeLineEnd
  return String.ofList (← takeLongBody mark escapes ((← get).length + 1))

/-- Takes a text of any of the four forms. -/
def takeText : Reader String :=
  takeLongText quotationMark true <|> takeShortText quotationMark true <|>
    takeLongText apostrophe false <|> takeShortText apostrophe false

/-! ## Keys -/

/-- The way to a value: a name, and the names behind dots. -/
structure Key where
  first : String
  rest : List String
deriving DecidableEq, Repr

/-- A character of a name without quotes. -/
def isBare (char : Char) : Bool :=
  char.isAlphanum || char == '_' || char == '-'

def takeBareName : Reader String := do
  let name ← takeWhile isBare
  if name.isEmpty then failure else return String.ofList name

/-- Takes a name and the blanks around it. -/
def takeName : Reader String := do
  skipBlanks
  let name ← takeShortText quotationMark true <|> takeShortText apostrophe false <|> takeBareName
  skipBlanks
  return name

/-- Takes names behind dots, of which each takes a character. -/
def takeDottedNames : (fuel : Nat) → Reader (List String)
  | 0 => failure
  | fuel + 1 => do
    if (← peekChar) = some '.' then
      expectChar '.'
      let name ← takeName
      return name :: (← takeDottedNames fuel)
    else return []

/-- Values may be nested less deeply than this, and keys have fewer names. -/
def depthLimit : Nat := 80

def takeKey : Reader Key := do
  let first ← takeName
  let rest ← takeDottedNames ((← get).length + 1)
  if depthLimit ≤ rest.length + 1 then failure
  return ⟨first, rest⟩

end CodeCapsules.Toml
