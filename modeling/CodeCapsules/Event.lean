import CodeCapsules.FileType
import CodeCapsules.Flash.Error
import CodeCapsules.Handle
import CodeCapsules.Hash
import CodeCapsules.ReturnWidth
import CodeCapsules.Store.Corruption

/-!
Contract: what the store reports about its work while it works.

Owns:
- the events, one constructor for each kind of thing that is reported;
- the severity of each, and the line it is written as.

Does not own: when an event is raised, and where lines go.
-/

namespace CodeCapsules

/-- How severe an event is. -/
inductive Level where
  | trace
  | debug
  | info
  | warn
deriving DecidableEq, Repr

namespace Level

def text : Level → String
  | .trace => "TRACE"
  | .debug => "DEBUG"
  | .info => "INFO"
  | .warn => "WARN"

/-- The place of a level among all, the least severe first. -/
def rank : Level → Nat
  | .trace => 0
  | .debug => 1
  | .info => 2
  | .warn => 3

def passes (level threshold : Level) : Bool := threshold.rank ≤ level.rank

end Level

/-- Something that happened. -/
inductive Event where
  | imageSessionClosed (fileIndex : Nat) (finish : UInt32)
  | writeSessionOpened (fileIndex : Nat) (offset : UInt32)
  | writeSessionClosed (fileIndex written : Nat)
  | writeSessionCloseFailed (fileIndex : Nat) (cause : Flash.Error)
  | imageSaved (path : String) (size : Nat)
  | imageLoaded (path : String) (files : Nat)
  | containerLocated (index : Nat) (type : FileType)
  | storeOpened (index : Nat) (base : CodeAddress) (capacity : Nat)
  | recordCorrupt (position : Nat) (length : UInt16) (reason : Store.Corruption)
  | lookupStarted (length : UInt16) (hash : Hash)
  | capsuleFound (offset : Offset)
  | capsuleSkipped (offset : Offset) (length : UInt16)
  | capsuleNotFound (offset : Offset)
  | capsuleAlreadyStored (offset : Offset) (hash : Hash)
  | capsuleAppended (offset : Offset) (length : UInt16) (hash : Hash)
  | containerErased (fileIndex : Nat)
  | generationAdvanced (generation : Generation)
  | invocationStarted (offset : Offset) (code : CodeAddress) (entry : InstructionAddress)
      (width : ReturnWidth)
  | callStarted (entry : InstructionAddress) (width : ReturnWidth)
  | instructionFetched (address : InstructionAddress) (opcode : UInt16)
  | callReturned (steps : Nat)
deriving DecidableEq, Repr

namespace Event

def level : Event → Level
  | .instructionFetched .. => .trace
  | .capsuleAppended .. | .containerErased .. | .generationAdvanced .. => .info
  | .writeSessionCloseFailed .. | .recordCorrupt .. => .warn
  | _ => .debug

/-- What happened, without the particulars. -/
def message : Event → String
  | .imageSessionClosed .. => "flash image session closed"
  | .writeSessionOpened .. => "write session opened"
  | .writeSessionClosed .. => "write session closed"
  | .writeSessionCloseFailed .. => "failed to close write session"
  | .imageSaved .. => "flash image saved"
  | .imageLoaded .. => "flash image loaded"
  | .containerLocated .. => "capsule container located"
  | .storeOpened .. => "capsule store opened"
  | .recordCorrupt .. => "corrupt capsule record"
  | .lookupStarted .. => "looking up capsule"
  | .capsuleFound .. => "capsule found"
  | .capsuleSkipped .. => "capsule does not match; skipping"
  | .capsuleNotFound .. => "capsule not found; returning first free offset"
  | .capsuleAlreadyStored .. => "capsule already stored"
  | .capsuleAppended .. => "capsule appended"
  | .containerErased .. => "capsule container erased"
  | .generationAdvanced .. => "capsule store generation advanced"
  | .invocationStarted .. => "invoking capsule"
  | .callStarted .. => "simulated capsule call"
  | .instructionFetched .. => "sim step"
  | .callReturned .. => "simulated capsule returned"

/-- The particulars of an event, each with its name. -/
def fields : Event → List (String × String)
  | .imageSessionClosed fileIndex finish =>
    [("file_index", toString fileIndex), ("end", toString finish.toNat)]
  | .writeSessionOpened fileIndex offset =>
    [("file_index", toString fileIndex), ("offset", toString offset.toNat)]
  | .writeSessionClosed fileIndex written =>
    [("file_index", toString fileIndex), ("written", toString written)]
  | .writeSessionCloseFailed fileIndex cause =>
    [("file_index", toString fileIndex), ("error", cause.message)]
  | .imageSaved path size => [("path", path), ("len", toString size)]
  | .imageLoaded path files => [("path", path), ("files", toString files)]
  | .containerLocated index type => [("index", toString index), ("file_type", type.text)]
  | .storeOpened index base capacity =>
    [("index", toString index), ("base", base.text), ("capacity", toString capacity)]
  | .recordCorrupt position length reason =>
    [("offset", toString position), ("length", toString length.toNat),
      ("reason", reason.message)]
  | .lookupStarted length hash => [("length", toString length.toNat), ("hash", hash.toHex)]
  | .capsuleFound offset => [("offset", toString offset.value.toNat)]
  | .capsuleSkipped offset length =>
    [("offset", toString offset.value.toNat), ("skip", toString length.toNat)]
  | .capsuleNotFound offset => [("offset", toString offset.value.toNat)]
  | .capsuleAlreadyStored offset hash =>
    [("offset", toString offset.value.toNat), ("hash", hash.toHex)]
  | .capsuleAppended offset length hash =>
    [("offset", toString offset.value.toNat), ("length", toString length.toNat),
      ("hash", hash.toHex)]
  | .containerErased fileIndex => [("file_index", toString fileIndex)]
  | .generationAdvanced generation => [("generation", generation.text)]
  | .invocationStarted offset code entry width =>
    [("offset", toString offset.value.toNat), ("code", code.text), ("entry", entry.text),
      ("width", width.text)]
  | .callStarted entry width => [("entry", entry.text), ("width", width.text)]
  | .instructionFetched address opcode =>
    [("pc", address.text), ("opcode", toString opcode.toNat)]
  | .callReturned steps => [("steps", toString steps)]

/-- The line of an event: its level, what happened, and the particulars. -/
def line (event : Event) : String :=
  let particulars := event.fields.map fun (name, value) => s!" {name}={value}"
  event.level.text ++ " " ++ event.message ++ String.join particulars

end Event

end CodeCapsules
