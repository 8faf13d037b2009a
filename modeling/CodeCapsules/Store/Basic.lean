import CodeCapsules.Store.Append
import CodeCapsules.Store.Invoke

/-!
Contract: a store of capsules on a device.

Owns:
- the configuration of a store;
- the open store, which keeps the container it found and counts erases;
- handles, which are good in the generation they were issued in.
-/

namespace CodeCapsules

open Flash (Device)
open Machine (Caller Simulator)

namespace Store

/-- How a store is set up. -/
structure Config where
  /-- The type tag of the container. -/
  containerType : FileType
  /-- The width of results when none is asked for. -/
  returnWidth : ReturnWidth
  /-- How many instructions a call may take. -/
  stepLimit : UInt32
deriving DecidableEq, Repr

def Config.standard : Config := ⟨.capsuleBuffer, .byte, Simulator.standardStepLimit⟩

end Store

structure Store (δ : Type) where
  device : δ
  config : Store.Config
  container : Store.Container
  generation : Generation
deriving DecidableEq, Repr

namespace Store

variable {δ : Type} [Device δ]

/-- Opens the container of a device. -/
def start (device : δ) (config : Config) : Logged Error (Store δ) := do
  let container ← Container.locate (Device.archive device) config.containerType
  Logged.report (.storeOpened container.index container.base container.capacity)
  return ⟨device, config, container, .initial⟩

def archive (store : Store δ) : Flash.Archive := Device.archive store.device

/-- Looks for the container again. -/
def locateAgain (store : Store δ) : Logged Error Nat :=
  locate store.archive store.config.containerType

def codeAddress (store : Store δ) (offset : Offset) : Outcome Error CodeAddress :=
  store.container.codeAddress offset

/-- Whether a capsule is stored, and where it is or could go. -/
def findSlot (store : Store δ) (length : UInt16) (hash : Hash) : Logged Error Slot :=
  find store.archive store.container length hash

/-- Like `findSlot`, with a handle for a capsule that is stored. -/
def lookup (store : Store δ) (length : UInt16) (hash : Hash) : Logged Error Lookup := do
  return .ofSlot store.generation (← store.findSlot length hash)

def scan (store : Store δ) : List Item × Scan := (Scan.start store.container).collect store.archive

/-- All records, in the order in which they are stored. -/
def list (store : Store δ) : Logged Error (List Record) := records store.archive store.container

/-- How many bytes come before free space. -/
def used (store : Store δ) : Logged Error Nat := usedBytes store.archive store.container

def free (store : Store δ) : Logged Error Nat := freeBytes store.archive store.container

/-- An operation on the device, as an operation on the store. -/
def onDevice {α : Type} (operation : Container → Operation δ Error α) :
    Operation (Store δ) Error α := fun store =>
  (operation store.container).within Store.device (fun store device => { store with device })
    store

def add (header : Header) (code : Bytes) : Operation (Store δ) Error Appended :=
  onDevice fun container => append container header code

def addCode (hash : Hash) (code : Bytes) : Operation (Store δ) Error Appended :=
  onDevice fun container => appendCode container hash code

/-- Starts the next generation. -/
def advance : Operation (Store δ) Error Unit := fun store =>
  let generation := store.generation.next
  (.report (.generationAdvanced generation), { store with generation })

/-- Empties the container, which makes all handles void. -/
def clear : Operation (Store δ) Error Unit := do
  onDevice erase
  advance

/-- The offset behind a handle, if the handle is still good. -/
def checkHandle (store : Store δ) (handle : Handle) : Outcome Error Offset :=
  if handle.generation = store.generation then .ok handle.offset
  else Outcome.refuse (.staleHandle handle store.generation)

def simulator (store : Store δ) : Simulator := .start store.config.stepLimit

/-- Calls the capsule at an offset and collects a result of this width. -/
def invokeWidth (store : Store δ) (offset : Offset) (width : ReturnWidth) :
    Operation Caller Error Unit :=
  invoke store.archive store.container offset width

/-- Calls the capsule at an offset with the configured width. -/
def invokeOffset (store : Store δ) (offset : Offset) : Operation Caller Error Unit :=
  store.invokeWidth offset store.config.returnWidth

/-- Calls the capsule behind a handle. -/
def invokeHandle (store : Store δ) (handle : Handle) : Operation Caller Error Unit := do
  let offset ← Operation.ofOutcome (store.checkHandle handle)
  store.invokeOffset offset

end Store

end CodeCapsules
