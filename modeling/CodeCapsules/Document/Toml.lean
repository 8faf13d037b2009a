import CodeCapsules.Toml.Document
import CodeCapsules.ToolConfig

/-!
Contract: the configuration of the tool as a TOML document.

A record is a table with its fields by name, or an array with its fields in
order. What it does not know it passes over. Some fields have a standard value,
the others have to be there.

Owns:
- the fields of a record;
- the records of the configuration.
-/

namespace CodeCapsules

namespace Toml

/-- The fields of a record, each by its position and its name. -/
abbrev Fields : Type := (position : Nat) → (name : String) → Option Node

/-- The node as a record. A moment counts as a record that has none of the
fields. -/
def Node.fields? : Node → Option Fields
  | .table _ members => some fun _ name => members.lookup name
  | .array items => some fun position _ => items[position]?
  | .tables items => some fun position _ => items[position]?.map (.table .headed)
  | .moment => some fun _ _ => none
  | _ => none

/-- A field that has to be there. -/
def required {α : Type} (decode : Node → Option α) (field : Option Node) : Option α := do
  decode (← field)

/-- A field that has a standard value. -/
def optional {α : Type} (decode : Node → Option α) (standard : α) : Option Node → Option α
  | none => some standard
  | some node => decode node

/-- The node as a natural number below `bound`. -/
def Node.natural? (bound : Nat) : Node → Option Nat
  | .integer value => if 0 ≤ value ∧ value < bound then some value.toNat else none
  | _ => none

def Node.uint8? (node : Node) : Option UInt8 := do return (← node.natural? UInt8.size).toUInt8

def Node.uint32? (node : Node) : Option UInt32 := do return (← node.natural? UInt32.size).toUInt32

def Node.bool? : Node → Option Bool
  | .boolean value => some value
  | _ => none

def Node.fileType? (node : Node) : Option FileType := do return ⟨← node.uint8?⟩

/-- Whether the node is a table or an array without anything in it. -/
def Node.isEmpty : Node → Bool
  | .table _ members => members.isEmpty
  | .array items => items.isEmpty
  | .tables items => items.isEmpty
  | _ => false

/-- The node as a return width: its name, or a table in which the name has an
empty value. -/
def Node.returnWidth? : Node → Option ReturnWidth
  | .text name => ReturnWidth.ofText? name
  | .table _ [(name, value)] => if value.isEmpty then ReturnWidth.ofText? name else none
  | _ => none

def Node.list? {α : Type} (decode : Node → Option α) : Node → Option (List α)
  | .array items => items.mapM decode
  | .tables items => items.mapM fun members => decode (.table .headed members)
  | _ => none

def Node.storeConfig? (node : Node) : Option Store.Config := do
  let fields ← node.fields?
  let standard := Store.Config.standard
  return ⟨← optional Node.fileType? standard.containerType (fields 0 "container_file_type"),
    ← optional Node.returnWidth? standard.returnWidth (fields 1 "default_return_width"),
    ← optional Node.uint32? standard.stepLimit (fields 2 "sim_step_limit")⟩

def Node.fileSpec? (node : Node) : Option Flash.FileSpec := do
  let fields ← node.fields?
  return ⟨← required Node.fileType? (fields 0 "file_type"),
    ← required Node.uint32? (fields 1 "len"), ← optional Node.uint8? 0 (fields 2 "fill")⟩

def Node.layout? (node : Node) : Option Flash.Layout := do
  let fields ← node.fields?
  return ⟨← required Node.uint32? (fields 0 "origin"),
    ← optional (Node.list? Node.fileSpec?) [] (fields 1 "files"),
    ← required Node.uint32? (fields 2 "capsule_capacity"),
    ← optional Node.fileType? .capsuleBuffer (fields 3 "capsule_file_type"),
    ← optional Node.bool? false (fields 4 "capsule_odd_base")⟩

end Toml

/-- The configuration that a TOML text describes, if it describes one. -/
def ToolConfig.ofToml? (text : String) : Option ToolConfig := do
  let members ← Toml.parse? text
  let standard := ToolConfig.standard
  return ⟨← Toml.optional Toml.Node.storeConfig? standard.store (members.lookup "store"),
    ← Toml.optional Toml.Node.layout? standard.layout (members.lookup "layout")⟩

end CodeCapsules
