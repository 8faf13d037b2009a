import CodeCapsules.Flash.Image

/-!
Contract: laying out files back to back from an origin.

Owns:
- the builder and its parts;
- the layout that reserves a container behind other files.
-/

namespace CodeCapsules.Flash

/-- The value of bytes that belong to no file. -/
def erasedByte : UInt8 := 0xFF

/-- An image under construction. -/
structure Builder where
  origin : UInt32
  memory : Array UInt8
  files : List Entry
deriving DecidableEq, Repr

namespace Builder

variable {ε : Type}

def start (origin : UInt32) : Builder := ⟨origin, #[], []⟩

def nextAddress (builder : Builder) : Outcome ε CodeAddress := do
  return ⟨← sum32 builder.origin builder.memory.size.toUInt32⟩

def file (builder : Builder) (type : FileType) (contents : Bytes) : Outcome ε Builder := do
  let base ← builder.nextAddress
  return {
    builder with
    memory := builder.memory.appendList contents
    files := builder.files ++ [⟨base, contents.length.toUInt32, type⟩] }

/-- Leaves bytes that belong to no file. -/
def padding (builder : Builder) (size : UInt32) : Builder :=
  { builder with memory := builder.memory.appendList (List.replicate size.toNat erasedByte) }

/-- Places a zeroed container. -/
def container (builder : Builder) (type : FileType) (capacity : UInt32) :
    Outcome ε Builder :=
  builder.file type (List.replicate capacity.toNat 0)

/-- Places a zeroed container under the tag that capsules have. -/
def capsuleBuffer (builder : Builder) (capacity : UInt32) : Outcome ε Builder :=
  builder.container .capsuleBuffer capacity

/-- The finished image, with no session open. -/
def build (builder : Builder) : Image := ⟨builder.origin, builder.memory, builder.files, none⟩

end Builder

/-- A file that a layout places ahead of the container. -/
structure FileSpec where
  type : FileType
  size : UInt32
  /-- The value of every byte of the file. -/
  fill : UInt8
deriving DecidableEq, Repr

/-- A description of an image with one container at its end. -/
structure Layout where
  origin : UInt32
  /-- The files ahead of the container, in table order. -/
  files : List FileSpec
  capacity : UInt32
  /-- The type tag of the container. -/
  type : FileType
  /-- Whether the container starts at an odd address. -/
  oddBase : Bool
deriving DecidableEq, Repr

namespace Layout

variable {ε : Type}

def standard : Layout := ⟨0x1000, [], 1024, .capsuleBuffer, false⟩

/-- The smallest container that can hold the mark an erase writes. -/
def minimumCapacity : Nat := 3

/-- The largest container that offsets reach. -/
def maximumCapacity : Nat := 65535

def placeFiles (builder : Builder) : List FileSpec → Outcome ε Builder
  | [] => .ok builder
  | spec :: rest => do
    let builder ← builder.file spec.type (List.replicate spec.size.toNat spec.fill)
    placeFiles builder rest

/-- Adds one byte if the next address does not have the parity asked for. -/
def align (builder : Builder) (oddBase : Bool) : Outcome ε Builder := do
  let next ← builder.nextAddress
  return if next.isWordAligned = oddBase then builder.padding 1 else builder

def build (layout : Layout) : Outcome Error Image :=
  if layout.capacity.toNat < minimumCapacity then
    Outcome.refuse (.invalidLayout (.capacityTooSmall layout.capacity.toNat minimumCapacity))
  else if maximumCapacity < layout.capacity.toNat then
    Outcome.refuse (.invalidLayout (.capacityTooLarge layout.capacity.toNat))
  else do
    let builder ← placeFiles (.start layout.origin) layout.files
    let builder ← align builder layout.oddBase
    let builder ← builder.container layout.type layout.capacity
    return builder.build

end Layout

end CodeCapsules.Flash
