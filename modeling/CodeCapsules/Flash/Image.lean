import CodeCapsules.Flash.Archive

/-!
Contract: a flash image, which is program memory with a table of files.

Owns:
- the memory, the table and the cursor of the write session;
- the image as an archive;
- the check that every file lies inside memory;
- direct writes that bypass write sessions.

Does not own: how images are laid out, framed on disk, or reprogrammed.
-/

namespace CodeCapsules.Flash

/-- The place where an open write session writes next. -/
structure Cursor where
  fileIndex : Nat
  /-- Counted from the base of the file. -/
  position : UInt32
deriving DecidableEq, Repr

/-- Program memory from `origin` on, and the files that lie in it. -/
structure Image where
  origin : UInt32
  memory : Array UInt8
  files : List Entry
  /-- The open write session, if there is one. -/
  cursor : Option Cursor
deriving DecidableEq, Repr

namespace Image

/-- Where in memory the byte at an address is. -/
def indexOf (image : Image) (address : CodeAddress) : Except Error Nat :=
  if image.origin ≤ address.value ∧
      address.value.toNat - image.origin.toNat < image.memory.size then
    .ok (address.value.toNat - image.origin.toNat)
  else
    .error (.addressOutOfRange address)

def file (image : Image) (index : Nat) : Except Error Entry :=
  match image.files[index]? with
  | some entry => .ok entry
  | none => .error (.fileIndexOutOfRange index image.files.length)

def readByte (image : Image) (address : CodeAddress) : Except Error UInt8 := do
  let index ← image.indexOf address
  match image.memory[index]? with
  | some byte => .ok byte
  | none => .error (.addressOutOfRange address)

def archive (image : Image) : Archive where
  fileCount := image.files.length
  file := image.file
  readByte := image.readByte

def sessionOpen (image : Image) : Bool := image.cursor.isSome

/-- The bytes of a file. The end of the file has to be an address even where
the bytes are there. -/
def fileBytes (image : Image) (index : Nat) : Outcome Error Bytes := do
  let entry ← Outcome.ofExcept (image.file index)
  let start ← Outcome.ofExcept (image.indexOf entry.base)
  let finish ← entry.finish
  if start + entry.size.toNat ≤ image.memory.size then
    return (image.memory.extract start (start + entry.size.toNat)).toList
  else
    Outcome.refuse (.addressOutOfRange finish)

/-- The address behind memory, as a number of any size. -/
def memoryEnd (image : Image) : Nat := image.origin.toNat + image.memory.size

/-- Whether a file lies inside memory. -/
def Holds (image : Image) (entry : Entry) : Prop :=
  image.origin.toNat ≤ entry.base.value.toNat ∧
    entry.base.value.toNat + entry.size.toNat ≤ image.memoryEnd

instance (image : Image) (entry : Entry) : Decidable (image.Holds entry) := by
  unfold Holds
  infer_instance

/-- Checks the files from `index` on, in table order. -/
def validateFrom (image : Image) (index : Nat) : List Entry → Except Error Unit
  | [] => .ok ()
  | entry :: rest =>
    if image.Holds entry then validateFrom image (index + 1) rest
    else
      let start := entry.base.value.toNat
      .error (.invalidLayout (.fileOutsideMemory index start (start + entry.size.toNat)
        image.origin.toNat image.memoryEnd))

/-- Checks that every file lies inside memory. -/
def validate (image : Image) : Except Error Unit := image.validateFrom 0 image.files

/-- Writes memory directly, outside any write session. -/
def poke (image : Image) (address : CodeAddress) (bytes : Bytes) : Outcome Error Image := do
  let start ← Outcome.ofExcept (image.indexOf address)
  if start + bytes.length ≤ image.memory.size then
    return { image with memory := Bytes.overwrite image.memory start bytes }
  else
    Outcome.refuse (.addressOutOfRange ⟨← sum32 image.origin image.memory.size.toUInt32⟩)

end Image

end CodeCapsules.Flash
