import CodeCapsules.CommandLine.Request
import CodeCapsules.Document.Toml
import CodeCapsules.Flash.Frame
import CodeCapsules.Json.Basic
import CodeCapsules.Script.Basic
import CodeCapsules.Script.Ink

/-!
Contract: what each command does.

A command first reads the configuration. All but `init` then load the image
and open its container, and those that change the container save the image.

Owns:
- loading and saving images;
- the script of each command, and the text or JSON that it prints.
-/

namespace CodeCapsules

open CommandLine (Command Format InitChoices Request)
open Flash (Image)

/-- What the scripts of commands know. -/
structure Setting where
  image : String
  format : Format
  coloured : Bool
  config : ToolConfig

namespace Setting

def tick (setting : Setting) : String := Ink.boldGreen.paint setting.coloured "✓"

def hashText (setting : Setting) (hash : Hash) : String :=
  Ink.cyan.paint setting.coloured hash.toHex

def offsetText (setting : Setting) (offset : Offset) : String :=
  Ink.yellow.paint setting.coloured offset.text

def numberText (setting : Setting) (number : Nat) : String :=
  Ink.bold.paint setting.coloured (toString number)

/-- Prints the JSON object in the format for programs, and the lines in the
format for people. -/
def answer (setting : Setting) (members : List (String × Json)) (lines : List String) :
    Script Unit :=
  match setting.format with
  | .json => Script.say (Json.object members).pretty
  | .text => lines.forM Script.say

/-! ## Images -/

def loadImage (setting : Setting) : Script Image := do
  let path := setting.image
  match ← Script.contentsOf path with
  | .error cause => Script.fail (.imageUnreadable path (.disk cause))
  | .ok frame =>
    let image ← Script.ofExcept (.imageUnreadable path) (Image.ofFrame frame)
    Script.note (.imageLoaded path image.files.length)
    return image

def openStore (setting : Setting) (image : Image) : Script (Store Image) :=
  Script.ofLogged .store (Store.start image setting.config.store)

def loadStore (setting : Setting) : Script (Store Image) := do
  setting.openStore (← setting.loadImage)

def saveImage (setting : Setting) (image : Image) : Script Unit := do
  let frame := image.toFrame
  match ← Script.writeFile setting.image frame with
  | .error cause => Script.fail (.imageUnwritable setting.image (.disk cause))
  | .ok () => Script.note (.imageSaved setting.image frame.length)

/-! ## Commands -/

/-- The configured layout with the choices made for this image. The container
has the type tag that the store looks for. -/
def layoutOf (setting : Setting) (choices : InitChoices) : Flash.Layout :=
  let layout := setting.config.layout
  { layout with
    capacity := choices.capacity.getD layout.capacity
    origin := choices.origin.getD layout.origin
    oddBase := layout.oddBase || choices.oddBase
    type := setting.config.store.containerType }

/-- Makes an image with an empty container. -/
def init (setting : Setting) (choices : InitChoices) : Script Unit := do
  if (← Script.isPresent setting.image) && !choices.force then
    Script.fail (.imageExists setting.image)
  let image ← Script.ofOutcome .layout (setting.layoutOf choices).build
  let store ← setting.openStore image
  let (_, store) ← Script.ofOperation .store Store.clear store
  setting.saveImage store.device
  let container := store.container
  let base := Ink.cyan.paint setting.coloured container.base.text
  setting.answer
    [("base", .number container.base.value.toNat), ("capacity", .number container.capacity),
      ("container_index", .number container.index), ("image", .text setting.image)]
    [s!"{setting.tick} Initialized capsule image " ++
        Ink.bold.paint setting.coloured setting.image,
      s!"  Container: file #{container.index} at {base}",
      s!"  Capacity:  {container.capacity} bytes"]

def recordJson (store : Store Image) (record : Store.Record) : Script Json := do
  let address ← Script.ofOutcome .store (store.codeAddress record.offset)
  return .object [("code_address", .number address.value.toNat),
    ("hash", .text record.header.hash.toHex), ("length", .number record.header.length.toNat),
    ("offset", .number record.offset.value.toNat)]

/-- Prints a record on a line, with the offset and the length in columns. -/
def sayRecord (setting : Setting) (store : Store Image) (record : Store.Record) :
    Script Unit := do
  let address ← Script.ofOutcome .store (store.codeAddress record.offset)
  let offset := Numeral.padLeft ' ' 6 record.offset.text
  let length := Numeral.padLeft ' ' 5 (toString record.header.length.toNat)
  Script.say (Ink.yellow.paint setting.coloured offset ++
    s!"  {setting.hashText record.header.hash}  {length} bytes  code at {address.text}")

def list (setting : Setting) : Script Unit := do
  let store ← setting.loadStore
  let records ← Script.ofLogged .store store.list
  let used ← Script.ofLogged .store store.used
  let free ← Script.ofLogged .store store.free
  match setting.format with
  | .json =>
    let entries ← records.mapM (recordJson store)
    Script.say (Json.pretty (.object [("free", .number free), ("records", .array entries),
      ("used", .number used)]))
  | .text =>
    if records.isEmpty then Script.say "No capsules stored."
    records.forM (setting.sayRecord store)
    Script.say s!"{setting.numberText used} used, {setting.numberText free} free"

def find (setting : Setting) (length : UInt16) (hashText : String) : Script Unit := do
  let hash ← Script.ofExcept .value (Hash.ofHex hashText)
  let store ← setting.loadStore
  let lookup ← Script.ofLogged .store (store.lookup length hash)
  let offset := setting.offsetText lookup.offset
  let line :=
    if lookup.isFound then s!"{setting.tick} {setting.hashText hash} found at {offset}"
    else s!"{setting.hashText hash} not stored; free space at {offset}"
  setting.answer
    [("found", .bool lookup.isFound), ("offset", .number lookup.offset.value.toNat)] [line]

/-- Stores the code in a file. The image is saved only if it was not stored
before. -/
def append (setting : Setting) (path : String) (hashText : Option String) : Script Unit := do
  let code ←
    match ← Script.contentsOf path with
    | .ok code => pure code
    | .error cause => Script.fail (.codeUnreadable path cause)
  let hash ←
    match hashText with
    | some text => Script.ofExcept .value (Hash.ofHex text)
    | none => pure (Hash.ofCode code)
  let store ← setting.loadStore
  let (appended, store) ← Script.ofOperation .store (Store.addCode hash code) store
  if appended.stored then setting.saveImage store.device
  let offset := setting.offsetText appended.offset
  let line :=
    if appended.stored then
      s!"{setting.tick} Appended {setting.hashText hash} ({code.length} code bytes) at {offset}"
    else s!"{setting.hashText hash} already stored at {offset}"
  setting.answer
    [("hash", .text hash.toHex), ("offset", .number appended.offset.value.toNat),
      ("stored", .bool appended.stored)] [line]

def address (setting : Setting) (offset : Offset) : Script Unit := do
  let store ← setting.loadStore
  let code ← Script.ofOutcome .store (store.codeAddress offset)
  let entry := code.toInstruction
  let warning :=
    if code.isWordAligned then []
    else [Ink.boldYellow.paint setting.coloured "warning:" ++ " code is not word aligned"]
  setting.answer
    [("code_address", .number code.value.toNat),
      ("instruction_address", .number entry.value.toNat),
      ("offset", .number offset.value.toNat), ("word_aligned", .bool code.isWordAligned)]
    (["Code address:        " ++ Ink.cyan.paint setting.coloured code.text,
      "Instruction address: " ++ Ink.cyan.paint setting.coloured entry.text] ++ warning)

def invoke (setting : Setting) (offset : Offset) (size : Option Nat) : Script Unit := do
  let store ← setting.loadStore
  let width ←
    match size with
    | some size => Script.ofExcept .value (ReturnWidth.ofSize size)
    | none => pure store.config.returnWidth
  let caller : Machine.Caller := ⟨store.simulator, List.replicate width.size 0⟩
  let (_, caller) ← Script.ofOperation .store (store.invokeWidth offset width) caller
  let steps := caller.simulator.steps
  let bytes := String.intercalate " " (caller.buffer.map fun byte => Hex.encode [byte])
  let result := Ink.cyan.paint setting.coloured bytes
  setting.answer
    [("offset", .number offset.value.toNat),
      ("result", .array (caller.buffer.map fun byte => .number byte.toNat)),
      ("steps", .number steps), ("width", .text width.text)]
    [s!"{setting.tick} Capsule at {setting.offsetText offset} returned {result} ({steps} steps)"]

def erase (setting : Setting) : Script Unit := do
  let store ← setting.loadStore
  let (_, store) ← Script.ofOperation .store Store.clear store
  setting.saveImage store.device
  setting.answer [("erased", .bool true)] [s!"{setting.tick} Capsule container erased"]

def script (setting : Setting) : Command → Script Unit
  | .init choices => setting.init choices
  | .list => setting.list
  | .find length hash => setting.find length hash
  | .append code hash => setting.append code hash
  | .address offset => setting.address ⟨offset⟩
  | .invoke offset width => setting.invoke ⟨offset⟩ width
  | .erase => setting.erase

end Setting

/-! ## Requests -/

/-- Reads the configuration, or takes the standard one if no file is named. -/
def loadConfig : Option String → Script ToolConfig
  | none => pure .standard
  | some path => do
    match ← Script.contentsOf path with
    | .error cause => Script.fail (.configUnreadable path cause)
    | .ok bytes =>
      match Utf8.decode? bytes with
      | none => Script.fail (.configUnreadable path .notText)
      | some text =>
        match ToolConfig.ofToml? text with
        | none => Script.fail (.configMalformed path)
        | some config => return config

namespace CommandLine.Request

def script (request : Request) (coloured : Bool) : Script Unit := do
  let config ← loadConfig request.config
  Setting.script ⟨request.image, request.format, coloured, config⟩ request.command

/-- The least severe events that are shown. -/
def threshold (request : Request) : Level := if request.verbose then .debug else .warn

end CommandLine.Request

end CodeCapsules
