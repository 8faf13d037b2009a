import CodeCapsules.Document.Flash
import CodeCapsules.ToolConfig

/-!
Contract: the JSON documents of records, answers and configurations.

The answer of a search names its kind in the member `status`. A slot has its
offset beside it. A lookup has the members of its kind beside it, which can be
read only once the kind is known.
-/

namespace CodeCapsules.Document

open Store (Appended Header Lookup Record Slot)

/-- A header as far as it is read. -/
structure HeaderParts where
  length : Option UInt16
  hash : Option Hash

instance : Document Header where
  toJson header := .object [("length", toJson header.length), ("hash", toJson header.hash)]
  reader :=
    Json.readRecord
      [member "length" HeaderParts.length fun parts length =>
          { parts with length := some length },
        member "hash" HeaderParts.hash fun parts hash => { parts with hash := some hash }]
      ⟨none, none⟩
      fun parts => do return ⟨← parts.length, ← parts.hash⟩

structure RecordParts where
  offset : Option Offset
  header : Option Header

instance : Document Record where
  toJson record := .object [("offset", toJson record.offset), ("header", toJson record.header)]
  reader :=
    Json.readRecord
      [member "offset" RecordParts.offset fun parts offset =>
          { parts with offset := some offset },
        member "header" RecordParts.header fun parts header =>
          { parts with header := some header }]
      ⟨none, none⟩
      fun parts => do return ⟨← parts.offset, ← parts.header⟩

structure AppendedParts where
  offset : Option Offset
  stored : Option Bool

instance : Document Appended where
  toJson appended :=
    .object [("offset", toJson appended.offset), ("stored", toJson appended.stored)]
  reader :=
    Json.readRecord
      [member "offset" AppendedParts.offset fun parts offset =>
          { parts with offset := some offset },
        member "stored" AppendedParts.stored fun parts stored =>
          { parts with stored := some stored }]
      ⟨none, none⟩
      fun parts => do return ⟨← parts.offset, ← parts.stored⟩

structure StoreConfigParts where
  containerType : Option FileType
  returnWidth : Option ReturnWidth
  stepLimit : Option UInt32

instance : Document Store.Config where
  toJson config :=
    .object [("container_file_type", toJson config.containerType),
      ("default_return_width", toJson config.returnWidth),
      ("sim_step_limit", toJson config.stepLimit)]
  reader :=
    Json.readRecord
      [member "container_file_type" StoreConfigParts.containerType fun parts containerType =>
          { parts with containerType := some containerType },
        member "default_return_width" StoreConfigParts.returnWidth fun parts returnWidth =>
          { parts with returnWidth := some returnWidth },
        member "sim_step_limit" StoreConfigParts.stepLimit fun parts stepLimit =>
          { parts with stepLimit := some stepLimit }]
      ⟨none, none, none⟩
      fun parts =>
        let standard := Store.Config.standard
        some ⟨parts.containerType.getD standard.containerType,
          parts.returnWidth.getD standard.returnWidth,
          parts.stepLimit.getD standard.stepLimit⟩

structure ToolConfigParts where
  store : Option Store.Config
  layout : Option Flash.Layout

instance : Document ToolConfig where
  toJson config := .object [("store", toJson config.store), ("layout", toJson config.layout)]
  reader :=
    Json.readRecord
      [member "store" ToolConfigParts.store fun parts store =>
          { parts with store := some store },
        member "layout" ToolConfigParts.layout fun parts layout =>
          { parts with layout := some layout }]
      ⟨none, none⟩
      fun parts => some ⟨parts.store.getD .standard, parts.layout.getD .standard⟩

/-- The two kinds of answers, by whether the capsule was found. -/
def statuses : List (String × Bool) := [("found", true), ("free", false)]

def statusText (found : Bool) : String := if found then "found" else "free"

/-- The slot of a kind at an offset. -/
def slotOf (found : Bool) (offset : Offset) : Slot := if found then .found offset else .free offset

/-- The offset in a value that was read before. -/
def offsetOf? (content : Json.Content) : Option Offset := do
  return ⟨(← content.natural? UInt16.size).toUInt16⟩

/-- A slot as far as it is read. -/
inductive SlotParts where
  | empty
  | status (found : Bool)
  /-- The offset came first, and was read without knowing the kind. -/
  | place (content : Json.Content)
  | complete (slot : Slot)

namespace SlotParts

def hasStatus : SlotParts → Bool
  | .status _ => true
  | .complete _ => true
  | _ => false

def hasOffset : SlotParts → Bool
  | .place _ => true
  | .complete _ => true
  | _ => false

/-- Reads the kind, and interprets an offset that came first. -/
def readStatus (parts : SlotParts) : Json.Reader SlotParts := do
  let found ← Json.readName statuses
  match parts with
  | .place content =>
    match offsetOf? content with
    | some offset => return .complete (slotOf found offset)
    | none => throw .mismatched
  | _ => return .status found

/-- Reads the offset, as an offset if the kind is known. -/
def readOffset (parts : SlotParts) : Json.Reader SlotParts := do
  match parts with
  | .status found => return .complete (slotOf found (← reader))
  | _ => return .place (← Json.readContent (Json.depthLimit - 1))

/-- The slot, if it is complete. -/
def slot? : SlotParts → Option Slot
  | .complete slot => some slot
  | _ => none

end SlotParts

def readStatus : Json.Reader Bool := do Json.named statuses (← Json.readString)

/-- A slot as an object. Its kind may be an object too, with the name as its
member. -/
def readSlotObject : Json.Reader Slot :=
  Json.readRecord
    [⟨"status", SlotParts.hasStatus, SlotParts.readStatus⟩,
      ⟨"offset", SlotParts.hasOffset, SlotParts.readOffset⟩]
    .empty SlotParts.slot?

/-- A slot as an array of the name of its kind and its offset. -/
def readSlotArray : Json.Reader Slot := do
  Json.skipByte
  let some found ← Json.readItem readStatus true | throw .mismatched
  let some offset ← Json.readItem reader false | throw .mismatched
  Json.expectArrayEnd
  return slotOf found offset

instance : Document Slot where
  toJson slot :=
    .object [("status", .text (statusText slot.isFound)), ("offset", toJson slot.offset)]
  reader := do if (← Json.peekValue) = 91 then readSlotArray else readSlotObject

/-- The handle in a value that was read before. -/
def handleOf? (content : Json.Content) : Option Handle := do
  match ← content.members? ["offset", "generation"] with
  | [offset, generation] =>
    return ⟨← offsetOf? offset, ⟨(← generation.natural? UInt32.size).toUInt32⟩⟩
  | _ => none

/-- The lookup of a kind whose other members were read before. -/
def lookupOf? (found : Bool) (content : Json.Content) : Option Lookup := do
  match ← content.members? [if found then "handle" else "offset"] with
  | [member] =>
    if found then return .found (← handleOf? member) else return .free (← offsetOf? member)
  | _ => none

/-- Reads the members of a lookup: its kind, which may come anywhere but once,
and the others, which are kept. Each takes a byte. -/
def readLookupMembers : (fuel : Nat) → (first : Bool) → (found : Option Bool) →
    Json.Reader (Option Bool × List (Bytes × Json.Content))
  | 0, _, _ => throw .truncated
  | fuel + 1, first, found => do
    if ← Json.hasNextMember first then
      let name ← Json.readString
      if name = Utf8.encode "status" then
        if found.isSome then throw .mismatched
        Json.expectColon
        readLookupMembers fuel false (some (← readStatus))
      else
        Json.expectColon
        let content ← Json.readContent (Json.depthLimit - 1)
        let (found, rest) ← readLookupMembers fuel false found
        return (found, (name, content) :: rest)
    else return (found, [])

/-- Reads the kind of a lookup and its other members. -/
def readLookupParts : Json.Reader (Bool × Json.Content) := do
  let byte ← Json.peekValue
  if byte = 91 then
    Json.skipByte
    match ← Json.readItem readStatus true with
    | none => throw .mismatched
    | some found =>
      let fuel := (← get).length + 1
      let items ← Json.readItems (Json.readContent (Json.depthLimit - 1)) fuel false
      Json.leaveBracket
      return (found, .list items)
  else if byte = 123 then
    Json.skipByte
    let (found, members) ← readLookupMembers ((← get).length + 1) true none
    match found with
    | none => throw .mismatched
    | some found =>
      Json.leaveBracket
      return (found, .record members)
  else Json.mismatch

instance : Document Lookup where
  toJson
    | .found handle => .object [("status", .text (statusText true)), ("handle", toJson handle)]
    | .free offset => .object [("status", .text (statusText false)), ("offset", toJson offset)]
  reader := do
    let (found, content) ← readLookupParts
    match lookupOf? found content with
    | some lookup => return lookup
    | none => throw .mismatched

end CodeCapsules.Document
