import CodeCapsules.Flash.Device

/-!
Contract: a flash image behind a device that refuses chosen calls.

A refused call does not reach the image. So a session whose close is refused
stays open.

Owns:
- the plan that says which calls are refused;
- the device, which counts the calls that change it.
-/

namespace CodeCapsules.Flash

/-- Which calls are refused. Opens, writes and closes are counted from one over
the life of the device, refused ones included. -/
structure FaultPlan where
  opens : List Nat
  writes : List Nat
  closes : List Nat
  /-- Addresses that cannot be read. -/
  reads : List UInt32
  /-- Indices whose table entries cannot be read. -/
  files : List Nat
deriving DecidableEq, Repr

def FaultPlan.none : FaultPlan := ⟨[], [], [], [], []⟩

/-- An image behind a fault plan. -/
structure FaultyDevice where
  image : Image
  plan : FaultPlan
  /-- How many opens there were. -/
  opened : Nat
  /-- How many writes there were. -/
  written : Nat
  /-- How many closes there were. -/
  closed : Nat
deriving DecidableEq, Repr

namespace FaultyDevice

def start (image : Image) (plan : FaultPlan) : FaultyDevice := ⟨image, plan, 0, 0, 0⟩

/-- The cause of a refusal that the plan asks for. -/
def refusal (call : Call) : Error := .serialization (.injected call)

def archive (device : FaultyDevice) : Archive where
  fileCount := device.image.files.length
  file index :=
    if index ∈ device.plan.files then .error (refusal .file) else device.image.file index
  readByte address :=
    if address.value ∈ device.plan.reads then .error (refusal .read)
    else device.image.readByte address

/-- Passes a command to the image unless the plan refuses the call. -/
def passing (refused : Bool) (call : Call) (command : Command Image) : Command FaultyDevice :=
  if refused then Operation.refuse (refusal call)
  else command.within FaultyDevice.image fun device image => { device with image }

instance : Device FaultyDevice where
  archive := archive
  openFile fileIndex offset := fun device =>
    let device := { device with opened := device.opened + 1 }
    passing (device.opened ∈ device.plan.opens) .open
      (Device.openFile fileIndex offset) device
  writeBytes bytes := fun device =>
    let device := { device with written := device.written + 1 }
    passing (device.written ∈ device.plan.writes) .write (Device.writeBytes bytes) device
  closeFile := fun device =>
    let device := { device with closed := device.closed + 1 }
    passing (device.closed ∈ device.plan.closes) .close Device.closeFile device

end FaultyDevice

end CodeCapsules.Flash
