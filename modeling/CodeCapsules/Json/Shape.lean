import CodeCapsules.Json.Reader

/-!
Contract: reading JSON values of a given shape.

Owns:
- numbers of a range, truth values, lists and names;
- records, which are objects with known members or arrays of the members in
  order; unknown members are passed over, and a repeated one is a defect;
- values that are read first and interpreted later.
-/

namespace CodeCapsules.Json

variable {α σ : Type}

def readNatural (bound : Nat) : Reader Nat := do
  let byte ← peekValue
  if byte = 45 ∨ isDigit byte then
    match ← takeSignedNumber with
    | .natural value => if value < bound then return value else throw .mismatched
    | _ => throw .mismatched
  else mismatch

def readBool : Reader Bool := do
  let byte ← peekValue
  if byte = 116 ∨ byte = 102 then
    skipByte
    expectWord ((wordTails.lookup byte).getD [])
    return byte = 116
  else mismatch

def readNull : Reader Unit := do
  let byte ← peekValue
  if byte = 110 then
    skipByte
    expectWord ((wordTails.lookup byte).getD [])
  else mismatch

def readString : Reader Bytes := do
  let byte ← peekValue
  if byte = 34 then
    skipByte
    takeString true
  else mismatch

def readItem (item : Reader α) (first : Bool) : Reader (Option α) := do
  if ← hasNextItem first then return some (← item) else return none

/-- The items of an array up to its end. Each takes a byte. -/
def readItems (item : Reader α) : (fuel : Nat) → (first : Bool) → Reader (List α)
  | 0, _ => throw .truncated
  | fuel + 1, first => do
    match ← readItem item first with
    | none => return []
    | some value => return value :: (← readItems item fuel false)

def readList (item : Reader α) : Reader (List α) := do
  if (← peekValue) = 91 then
    skipByte
    let items ← readItems item ((← get).length + 1) true
    expectArrayEnd
    return items
  else mismatch

/-- Exactly `count` values from the present item on. -/
def readExactly (item : Reader α) : (count : Nat) → (first : Bool) → Reader (List α)
  | 0, _ => return []
  | count + 1, first => do
    match ← readItem item first with
    | none => throw .mismatched
    | some value => return value :: (← readExactly item count false)

/-- An array of `count` values. One that is longer is no such text at all. -/
def readTuple (item : Reader α) (count : Nat) : Reader (List α) := do
  if (← peekValue) = 91 then
    skipByte
    let items ← readExactly item count true
    expectArrayEnd
    return items
  else mismatch

/-- A member of a record: how it is read into the record so far, and whether
that has it already. -/
structure Member (σ : Type) where
  name : String
  isRead : σ → Bool
  read : σ → Reader σ

/-- The members of a record from an array, in order, as far as it goes. -/
def readPositions : (first : Bool) → (members : List (Member σ)) → (record : σ) → Reader σ
  | _, [], record => return record
  | first, member :: members, record => do
    if ← hasNextItem first then
      readPositions false members (← member.read record)
    else return record

/-- The members of a record from an object, up to its end. Each takes a byte. -/
def readMembers (members : List (Member σ)) : (fuel : Nat) → (first : Bool) → σ → Reader σ
  | 0, _, _ => throw .truncated
  | fuel + 1, first, record => do
    if ← hasNextMember first then
      let name ← readString
      match members.find? fun member => Utf8.encode member.name == name with
      | none =>
        expectColon
        ignoreValue
        readMembers members fuel false record
      | some member =>
        if member.isRead record then throw .mismatched
        expectColon
        readMembers members fuel false (← member.read record)
    else return record

/-- A record, read into `empty` and completed by `finish`, which has none if a
member that has to be there is missing. -/
def readRecord (members : List (Member σ)) (empty : σ) (finish : σ → Option α) : Reader α := do
  let complete (record : σ) : Reader α :=
    match finish record with
    | some value => return value
    | none => throw .mismatched
  let byte ← peekValue
  if byte = 91 then
    skipByte
    let value ← complete (← readPositions true members empty)
    expectArrayEnd
    return value
  else if byte = 123 then
    skipByte
    let record ← readMembers members ((← get).length + 1) true empty
    leaveBracket
    complete record
  else mismatch

/-- The value with this name, or a mismatch. -/
def named (values : List (String × α)) (name : Bytes) : Reader α :=
  match values.find? fun value => Utf8.encode value.1 == name with
  | some value => return value.2
  | none => throw .mismatched

/-- One of several named values: its name, or an object that gives the name
the value `null`. -/
def readName (values : List (String × α)) : Reader α := do
  match ← peekToken with
  | none => throw .truncated
  | some 34 =>
    skipByte
    named values (← takeString true)
  | some 123 =>
    skipByte
    match ← peekToken with
    | some 34 => skipByte
    | some _ => throw .malformed
    | none => throw .truncated
    let value ← named values (← takeString true)
    expectColon
    readNull
    match ← peekToken with
    | some 125 =>
      skipByte
      return value
    | some _ => throw .malformed
    | none => throw .truncated
  | some _ => throw .malformed

/-- A value that was read without knowing its shape. -/
inductive Content where
  | natural (value : Nat)
  | text (value : Bytes)
  | list (items : List Content)
  | record (members : List (Bytes × Content))
  /-- A value that no member of a known record takes. -/
  | other

/-- Reads nested members with `value`, up to the end of the object. -/
def readContentMembers (value : Reader Content) :
    (fuel : Nat) → (first : Bool) → Reader (List (Bytes × Content))
  | 0, _ => throw .truncated
  | fuel + 1, first => do
    if ← hasNextMember first then
      let name ← readString
      expectColon
      let content ← value
      return (name, content) :: (← readContentMembers value fuel false)
    else return []

def depthLimit : Nat := 127

/-- Reads any value inside of which `depth` brackets may still be opened. -/
def readContent : (depth : Nat) → Reader Content
  | 0 => do
    let byte ← peekValue
    if byte = 91 ∨ byte = 123 then throw .malformed
    readScalar byte
  | depth + 1 => do
    let byte ← peekValue
    if byte = 91 then
      skipByte
      let items ← readItems (readContent depth) ((← get).length + 1) true
      leaveBracket
      return .list items
    else if byte = 123 then
      skipByte
      let members ← readContentMembers (readContent depth) ((← get).length + 1) true
      leaveBracket
      return .record members
    else readScalar byte
where
  /-- A value without parts that starts with `byte`. -/
  readScalar (byte : UInt8) : Reader Content := do
    match wordTails.lookup byte with
    | some tail =>
      skipByte
      expectWord tail
      return .other
    | none =>
      if byte = 34 then
        skipByte
        return .text (← takeString true)
      else if byte = 45 ∨ isDigit byte then
        match ← takeSignedNumber with
        | .natural value => return .natural value
        | _ => return .other
      else throw .malformed

/-- A natural number below `bound`, from a value that was read before. -/
def Content.natural? (bound : Nat) : Content → Option Nat
  | .natural value => if value < bound then some value else none
  | _ => none

/-- The members that a record asks for, from a value that was read before: a
list with one item each, or an object that has each of them once. -/
def Content.members? (names : List String) : Content → Option (List Content)
  | .list items => if items.length = names.length then some items else none
  | .record members =>
    names.mapM fun name =>
      match members.filter fun member => member.1 == Utf8.encode name with
      | [member] => some member.2
      | _ => none
  | _ => none

end CodeCapsules.Json
