/-!
Contract: what can be asked for on the command line.

Owns:
- the commands and what each of them needs to know;
- the request, which is a command with the choices that all commands share.
-/

namespace CodeCapsules.CommandLine

/-- How answers are written. -/
inductive Format where
  | text
  | json
deriving DecidableEq, Repr

def Format.ofText? : String → Option Format
  | "text" => some .text
  | "json" => some .json
  | _ => none

inductive CommandKind where
  | init
  | list
  | find
  | append
  | address
  | invoke
  | erase
deriving DecidableEq, Repr

namespace CommandKind

def all : List CommandKind := [.init, .list, .find, .append, .address, .invoke, .erase]

def text : CommandKind → String
  | .init => "init"
  | .list => "list"
  | .find => "find"
  | .append => "append"
  | .address => "address"
  | .invoke => "invoke"
  | .erase => "erase"

def ofText? (name : String) : Option CommandKind := all.find? fun kind => kind.text == name

end CommandKind

/-- What a new image has other than the configured layout. -/
structure InitChoices where
  capacity : Option UInt32
  origin : Option UInt32
  oddBase : Bool
  /-- Whether an image that exists is replaced. -/
  force : Bool
deriving DecidableEq, Repr

inductive Command where
  /-- Makes an image with an empty container. -/
  | init (choices : InitChoices)
  /-- Shows all records. -/
  | list
  /-- Looks for a record by its header. -/
  | find (length : UInt16) (hash : String)
  /-- Stores the code in a file, under its own hash if none is given. -/
  | append (code : String) (hash : Option String)
  /-- Shows where the code of a record lies. -/
  | address (offset : UInt16)
  /-- Calls the code of a record. -/
  | invoke (offset : UInt16) (width : Option Nat)
  /-- Empties the container. -/
  | erase
deriving DecidableEq, Repr

/-- The image that commands work on when none is named. -/
def standardImage : String := "capsules.img"

/-- A command with the choices that all commands share. -/
structure Request where
  command : Command
  image : String
  config : Option String
  verbose : Bool
  format : Format
deriving DecidableEq, Repr

end CodeCapsules.CommandLine
