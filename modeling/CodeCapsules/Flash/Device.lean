import CodeCapsules.Flash.Image
import CodeCapsules.Operation

/-!
Contract: devices that can be read as an archive and reprogrammed.

A file is changed by opening it, writing any number of byte strings one
behind the other, and closing it.

Owns:
- the interface of a device;
- the flash image as a device.
-/

namespace CodeCapsules.Flash

/-- An operation of a device that answers nothing on success. -/
abbrev Command (δ : Type) : Type := Operation δ Error Unit

/-- A flash device. -/
class Device (δ : Type) where
  /-- What can be read of the device in its present state. -/
  archive : δ → Archive
  /-- Starts writing a file at an offset inside it. -/
  openFile (fileIndex : Nat) (offset : UInt32) : Command δ
  /-- Writes bytes and moves on behind them. -/
  writeBytes (bytes : Bytes) : Command δ
  /-- Finishes writing. -/
  closeFile : Command δ

namespace Image

def openSession (image : Image) (fileIndex : Nat) (offset : UInt32) : Except Error Image :=
  match image.cursor with
  | some cursor => .error (.sessionAlreadyOpen cursor.fileIndex)
  | none => do
    let entry ← image.file fileIndex
    if offset ≤ entry.size then
      return { image with cursor := some ⟨fileIndex, offset⟩ }
    else
      .error (.writeOutOfBounds fileIndex offset 0 entry.size)

/-- The memory and the cursor after a write to the open session. -/
def writeSession (image : Image) (bytes : Bytes) : Outcome Error Image := do
  match image.cursor with
  | none => Outcome.refuse .sessionNotOpen
  | some cursor =>
    let entry ← Outcome.ofExcept (image.file cursor.fileIndex)
    let address : CodeAddress := ⟨← sum32 entry.base.value cursor.position⟩
    if ← entry.covers address bytes.length.toUInt32 then
      let start ← Outcome.ofExcept (image.indexOf address)
      if start + bytes.length ≤ image.memory.size then
        let position ← sum32 cursor.position bytes.length.toUInt32
        return {
          image with
          memory := Bytes.overwrite image.memory start bytes
          cursor := some { cursor with position } }
      else
        Outcome.halt .outOfBounds
    else
      Outcome.refuse
        (.writeOutOfBounds cursor.fileIndex cursor.position bytes.length entry.size)

/-- Puts the image that an outcome produced in place of the old one, which
stays as it is when there is none. -/
def replacing (change : Image → Outcome Error Image) : Command Image := fun image =>
  match change image with
  | .ok changed => (⟨.ok (), []⟩, changed)
  | .error stop => (⟨.error stop, []⟩, image)

/-- Closes the open session and reports how far it wrote. -/
def closeSession : Command Image := fun image =>
  match image.cursor with
  | none => (.refuse .sessionNotOpen, image)
  | some cursor =>
    (.report (.imageSessionClosed cursor.fileIndex cursor.position), { image with cursor := none })

instance : Device Image where
  archive := archive
  openFile fileIndex offset :=
    replacing fun image => Outcome.ofExcept (image.openSession fileIndex offset)
  writeBytes bytes := replacing fun image => image.writeSession bytes
  closeFile := closeSession

end Image

end CodeCapsules.Flash
