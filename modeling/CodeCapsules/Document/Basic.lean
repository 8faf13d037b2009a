import CodeCapsules.Address
import CodeCapsules.FileType
import CodeCapsules.Handle
import CodeCapsules.Hash
import CodeCapsules.Json.Basic
import CodeCapsules.Json.Shape
import CodeCapsules.ReturnWidth

/-!
Contract: values as JSON documents.

Owns:
- the interface of values that have a document;
- the documents of hashes, addresses, tags, handles and widths.
-/

namespace CodeCapsules

/-- Values that are written as JSON and read back. -/
class Document (α : Type) where
  toJson : α → Json
  reader : Json.Reader α

namespace Document

/-- The document of a value, on one line. -/
def write {α : Type} [Document α] (value : α) : String := (toJson value).compact

def read (α : Type) [Document α] (text : String) : Except Json.Defect α :=
  Json.readText reader text

/-- A member that is read with the reader of its type. -/
def member {α σ : Type} [Document α] (name : String) (get : σ → Option α)
    (set : σ → α → σ) : Json.Member σ where
  name := name
  isRead record := (get record).isSome
  read record := do return set record (← reader)

instance : Document Bool where
  toJson := .bool
  reader := Json.readBool

instance : Document UInt8 where
  toJson value := .number value.toNat
  reader := do return (← Json.readNatural UInt8.size).toUInt8

instance : Document UInt16 where
  toJson value := .number value.toNat
  reader := do return (← Json.readNatural UInt16.size).toUInt16

instance : Document UInt32 where
  toJson value := .number value.toNat
  reader := do return (← Json.readNatural UInt32.size).toUInt32

instance {α : Type} [Document α] : Document (List α) where
  toJson values := .array (values.map toJson)
  reader := Json.readList reader

instance : Document Hash where
  toJson hash := toJson hash.toBytes
  reader := do
    match ← Json.readTuple reader Hash.size with
    | [first, second, third, fourth] => return ⟨first, second, third, fourth⟩
    | _ => throw .mismatched

instance : Document Offset where
  toJson offset := toJson offset.value
  reader := do return ⟨← reader⟩

instance : Document CodeAddress where
  toJson address := toJson address.value
  reader := do return ⟨← reader⟩

instance : Document InstructionAddress where
  toJson address := toJson address.value
  reader := do return ⟨← reader⟩

instance : Document FileType where
  toJson type := toJson type.value
  reader := do return ⟨← reader⟩

instance : Document Generation where
  toJson generation := toJson generation.value
  reader := do return ⟨← reader⟩

instance : Document ReturnWidth where
  toJson width := .text width.text
  reader := Json.readName (ReturnWidth.all.map fun width => (width.text, width))

/-- A handle as far as it is read. -/
structure HandleParts where
  offset : Option Offset
  generation : Option Generation

instance : Document Handle where
  toJson handle :=
    .object [("offset", toJson handle.offset), ("generation", toJson handle.generation)]
  reader :=
    Json.readRecord
      [member "offset" HandleParts.offset fun parts offset => { parts with offset := some offset },
        member "generation" HandleParts.generation fun parts generation =>
          { parts with generation := some generation }]
      ⟨none, none⟩
      fun parts => do return ⟨← parts.offset, ← parts.generation⟩

end Document

end CodeCapsules
