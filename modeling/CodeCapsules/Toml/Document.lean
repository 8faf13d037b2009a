import CodeCapsules.Toml.Number

/-!
Contract: reading a whole TOML text.

Owns:
- arrays and inline tables, nested less deeply than a limit;
- definitions, headers, and the lines of a text.
-/

namespace CodeCapsules.Toml

/-! ## Values -/

/-- Takes the rest of an array behind the space ahead of an item. Each item
takes a character. -/
def takeItems (value : Reader Node) : (fuel : Nat) → Reader (List Node)
  | 0 => failure
  | fuel + 1 => do
    skipSpace
    if (← peekChar) = some ']' then
      expectChar ']'
      return []
    else
      let item ← value
      skipSpace
      match ← takeChar with
      | ']' => return [item]
      | ',' => return item :: (← takeItems value fuel)
      | _ => failure

def takeDefinition (value : Reader Node) : Reader (Key × Node) := do
  let key ← takeKey
  expectChar '='
  skipBlanks
  return (key, ← value)

/-- Takes the rest of an inline table from a definition on. -/
def takeDefinitions (value : Reader Node) : (fuel : Nat) → Reader (List (Key × Node))
  | 0 => failure
  | fuel + 1 => do
    let definition ← takeDefinition value
    skipBlanks
    match ← takeChar with
    | '\x7d' => return [definition]
    | ',' => return definition :: (← takeDefinitions value fuel)
    | _ => failure

def takeInlineTable (value : Reader Node) : Reader Node := do
  skipBlanks
  let definitions ←
    if (← peekChar) = some '\x7d' then do
      expectChar '\x7d'
      pure []
    else takeDefinitions value ((← get).length + 1)
  return .table .inline (← Members.defineAll [] definitions)

/-- Takes a value that starts with `first` and has no parts. -/
def takeScalar (first : Char) : Reader Node :=
  if first = quotationMark ∨ first = apostrophe then do return .text (← takeText)
  else if first = 't' then do
    expectWord "true"
    return .boolean true
  else if first = 'f' then do
    expectWord "false"
    return .boolean false
  else takeNumber

/-- Takes a value in which `depth` brackets may be nested. -/
def takeValue : (depth : Nat) → Reader Node
  | 0 => do takeScalar (← firstChar)
  | depth + 1 => do
    let first ← firstChar
    if first = '[' then
      expectChar '['
      return .array (← takeItems (takeValue depth) ((← get).length + 1))
    else if first = '\x7b' then
      expectChar '\x7b'
      takeInlineTable (takeValue depth)
    else takeScalar first
where
  /-- The character that a value starts with. -/
  firstChar : Reader Char := do
    match ← peekChar with
    | some first => return first
    | none => failure

/-! ## Lines -/

/-- A line that holds something. -/
inductive Line where
  | definition (key : Key) (value : Node)
  | header (header : Header)

def takeHeader : Reader Header := do
  expectChar '['
  if (← peekChar) = some '[' then
    expectChar '['
    let key ← takeKey
    expectWord "]]"
    return .item key
  else
    let key ← takeKey
    expectChar ']'
    return .table key

/-- Takes a line, which may be empty or hold a comment only. -/
def takeLine : Reader (Option Line) := do
  match ← peekChar with
  | some '#' =>
    takeComment
    takeEnd
    return none
  | some '[' =>
    let header ← takeHeader
    finishLine
    return some (.header header)
  | some '\n' | some '\r' =>
    takeLineEnd
    return none
  | _ =>
    let (key, value) ← takeDefinition (takeValue (depthLimit - 1))
    finishLine
    return some (.definition key value)

/-- Takes lines up to the end of the text. Each takes a character. -/
def takeLines : (fuel : Nat) → Reader (List Line)
  | 0 => failure
  | fuel + 1 => do
    skipBlanks
    if (← get).isEmpty then return []
    match ← takeLine with
    | none => takeLines fuel
    | some line => return line :: (← takeLines fuel)

/-- The definitions ahead of all headers, and the sections behind them. -/
def group : List Line → List (Key × Node) × List Section
  | [] => ([], [])
  | .definition key value :: rest =>
    let (definitions, sections) := group rest
    ((key, value) :: definitions, sections)
  | .header header :: rest =>
    let (definitions, sections) := group rest
    ([], ⟨header, definitions⟩ :: sections)

/-- The mark of the order of bytes, which a text may start with. -/
def byteOrderMark : Char := Char.ofNat 0xFEFF

def takeDocument : Reader Members := do
  if (← peekChar) = some byteOrderMark then expectChar byteOrderMark
  let (definitions, sections) := group (← takeLines ((← get).length + 1))
  Section.applyAll (← Members.defineAll [] definitions) sections

def parse? (text : String) : Option Members := takeDocument.run' text.toList

end CodeCapsules.Toml
