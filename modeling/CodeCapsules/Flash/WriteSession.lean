import CodeCapsules.Flash.Device

/-!
Contract: write sessions, which are closed exactly once.

A session is opened, written, and then either closed, which answers whether
the device could finish, or abandoned, which closes the device too but can
only report a failure.

Owns:
- the session and its steps;
- a whole session that writes a list of byte strings.
-/

namespace CodeCapsules.Flash

/-- A session that is open on a device. -/
structure WriteSession where
  fileIndex : Nat
  /-- How many bytes were written so far. -/
  written : Nat
deriving DecidableEq, Repr

namespace WriteSession

variable {δ : Type} [Device δ]

def start (fileIndex : Nat) (offset : UInt32) : Operation δ Error WriteSession := do
  Device.openFile fileIndex offset
  Operation.report (.writeSessionOpened fileIndex offset)
  return ⟨fileIndex, 0⟩

def write (session : WriteSession) (bytes : Bytes) : Operation δ Error WriteSession := do
  Device.writeBytes bytes
  return { session with written := session.written + bytes.length }

/-- Writes byte strings one behind the other, up to the first that fails. -/
def writeAll (session : WriteSession) : List Bytes → Operation δ Error WriteSession
  | [] => pure session
  | bytes :: rest => do
    let session ← session.write bytes
    writeAll session rest

/-- Finishes the session with the answer of the device. -/
def close (session : WriteSession) : Operation δ Error Unit := do
  Operation.report (.writeSessionClosed session.fileIndex session.written)
  Device.closeFile

/-- Closes the device without an answer; a failure is only reported. -/
def abandon (session : WriteSession) : Operation δ Error Unit := fun device =>
  match Device.closeFile device with
  | (⟨.error (.refused cause), events⟩, device) =>
    (⟨.ok (), events ++ [.writeSessionCloseFailed session.fileIndex cause]⟩, device)
  | closed => closed

/-- A whole session: it writes the byte strings and closes. If a write fails,
the session is abandoned and the failure stands. -/
def run (fileIndex : Nat) (offset : UInt32) (chunks : List Bytes) : Operation δ Error Unit := do
  let session ← start fileIndex offset
  let session ← (session.writeAll chunks).orCleanUp session.abandon
  session.close

end WriteSession

end CodeCapsules.Flash
