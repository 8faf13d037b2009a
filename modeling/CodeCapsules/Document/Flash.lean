import CodeCapsules.Document.Basic
import CodeCapsules.Flash.Builder

/-!
Contract: the JSON documents of table entries, layouts and images.

An image that is read from a document is not checked, and has no session
open.
-/

namespace CodeCapsules.Document

open Flash (Entry FileSpec Image Layout)

/-- A table entry as far as it is read. -/
structure EntryParts where
  base : Option CodeAddress
  size : Option UInt32
  type : Option FileType

instance : Document Entry where
  toJson entry :=
    .object [("base", toJson entry.base), ("len", toJson entry.size),
      ("file_type", toJson entry.type)]
  reader :=
    Json.readRecord
      [member "base" EntryParts.base fun parts base => { parts with base := some base },
        member "len" EntryParts.size fun parts size => { parts with size := some size },
        member "file_type" EntryParts.type fun parts type => { parts with type := some type }]
      ⟨none, none, none⟩
      fun parts => do return ⟨← parts.base, ← parts.size, ← parts.type⟩

structure FileSpecParts where
  type : Option FileType
  size : Option UInt32
  fill : Option UInt8

instance : Document FileSpec where
  toJson spec :=
    .object [("file_type", toJson spec.type), ("len", toJson spec.size),
      ("fill", toJson spec.fill)]
  reader :=
    Json.readRecord
      [member "file_type" FileSpecParts.type fun parts type => { parts with type := some type },
        member "len" FileSpecParts.size fun parts size => { parts with size := some size },
        member "fill" FileSpecParts.fill fun parts fill => { parts with fill := some fill }]
      ⟨none, none, none⟩
      fun parts => do return ⟨← parts.type, ← parts.size, parts.fill.getD 0⟩

structure LayoutParts where
  origin : Option UInt32
  files : Option (List FileSpec)
  capacity : Option UInt32
  type : Option FileType
  oddBase : Option Bool

instance : Document Layout where
  toJson layout :=
    .object [("origin", toJson layout.origin), ("files", toJson layout.files),
      ("capsule_capacity", toJson layout.capacity), ("capsule_file_type", toJson layout.type),
      ("capsule_odd_base", toJson layout.oddBase)]
  reader :=
    Json.readRecord
      [member "origin" LayoutParts.origin fun parts origin =>
          { parts with origin := some origin },
        member "files" LayoutParts.files fun parts files => { parts with files := some files },
        member "capsule_capacity" LayoutParts.capacity fun parts capacity =>
          { parts with capacity := some capacity },
        member "capsule_file_type" LayoutParts.type fun parts type =>
          { parts with type := some type },
        member "capsule_odd_base" LayoutParts.oddBase fun parts oddBase =>
          { parts with oddBase := some oddBase }]
      ⟨none, none, none, none, none⟩
      fun parts => do
        return ⟨← parts.origin, parts.files.getD [], ← parts.capacity,
          parts.type.getD .capsuleBuffer, parts.oddBase.getD false⟩

structure ImageParts where
  origin : Option UInt32
  memory : Option Bytes
  files : Option (List Entry)

instance : Document Image where
  toJson image :=
    .object [("origin", toJson image.origin), ("memory", toJson image.memory.toList),
      ("files", toJson image.files)]
  reader :=
    Json.readRecord
      [member "origin" ImageParts.origin fun parts origin =>
          { parts with origin := some origin },
        member "memory" ImageParts.memory fun parts memory =>
          { parts with memory := some memory },
        member "files" ImageParts.files fun parts files => { parts with files := some files }]
      ⟨none, none, none⟩
      fun parts => do return ⟨← parts.origin, (← parts.memory).toArray, ← parts.files, none⟩

end CodeCapsules.Document
