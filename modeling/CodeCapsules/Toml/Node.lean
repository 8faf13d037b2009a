import CodeCapsules.Toml.Reader

/-!
Contract: the tree that a TOML text describes.

A table is described once. It may be named before that on the way to another
table, and what a dotted key describes only dotted keys of the same table can
extend. Two definitions that do not go together have no tree.

Owns:
- values, tables, and arrays of tables;
- defining a value by its key;
- opening a table by its header.
-/

namespace CodeCapsules.Toml

/-- How a table came about. -/
inductive TableKind where
  /-- By its own header. -/
  | headed
  /-- On the way to a table with a header. -/
  | implied
  /-- On the way to a value with a dotted key. -/
  | dotted
  /-- As a value, which is complete. -/
  | inline
deriving DecidableEq, Repr

/-- A value, a table, or an array of tables. -/
inductive Node where
  | text (value : String)
  | integer (value : Int)
  | boolean (value : Bool)
  /-- A number that is no integer. -/
  | real
  /-- A date, a time, or both. -/
  | moment
  | array (items : List Node)
  | table (kind : TableKind) (members : List (String × Node))
  /-- One table for each header in double brackets. -/
  | tables (items : List (List (String × Node)))
deriving Repr

/-- The members of a table, each name once. -/
abbrev Members : Type := List (String × Node)

namespace Members

/-- The members with this one in place of the one of its name, or behind them
all. -/
def put (name : String) (node : Node) : Members → Members
  | [] => [(name, node)]
  | member :: rest =>
    if member.1 = name then (name, node) :: rest else member :: put name node rest

/-- The tables with another one in place of the last. -/
def replaceLast (tables : List Members) (last : Members) : List Members :=
  tables.dropLast ++ [last]

/-- The members with a value under a key. On the way there, tables without a
header may be passed. The table that takes the value is the one at hand, or
one that came about by dotted keys. -/
def define (value : Node) : (members : Members) → (name : String) → (rest : List String) →
    Option Members
  | members, name, [] =>
    match members.lookup name with
    | none => some (members.put name value)
    | some _ => none
  | members, name, next :: rest =>
    match members.lookup name with
    | none => do return members.put name (.table .dotted (← define value [] next rest))
    | some (.table kind inner) =>
      if kind = .dotted ∨ (kind = .implied ∧ rest ≠ []) then do
        return members.put name (.table kind (← define value inner next rest))
      else none
    | some (.tables tables) =>
      match tables.getLast?, rest with
      | some last, _ :: _ => do
        return members.put name (.tables (replaceLast tables (← define value last next rest)))
      | _, _ => none
    | some _ => none

/-- Changes the table at the end of a way of headers, and its place in it. The
way leads into the last of an array of tables, and makes tables that are
missing. -/
def within (change : Members → (name : String) → Option Members) :
    (members : Members) → (name : String) → (rest : List String) → Option Members
  | members, name, [] => change members name
  | members, name, next :: rest =>
    match members.lookup name with
    | none => do return members.put name (.table .implied (← within change [] next rest))
    | some (.table .inline _) => none
    | some (.table kind inner) => do
      return members.put name (.table kind (← within change inner next rest))
    | some (.tables tables) => do
      let inner ← within change (← tables.getLast?) next rest
      return members.put name (.tables (replaceLast tables inner))
    | some _ => none

def defineAll (members : Members) : List (Key × Node) → Option Members
  | [] => some members
  | (key, value) :: rest => do
    defineAll (← members.define value key.first key.rest) rest

end Members

/-- What stands above a group of definitions. -/
inductive Header where
  /-- A table of its own. -/
  | table (key : Key)
  /-- One more table of an array. -/
  | item (key : Key)
deriving DecidableEq, Repr

structure Section where
  header : Header
  definitions : List (Key × Node)

namespace Section

/-- Describes a table, which was at most named on the way to another. -/
def describe (definitions : List (Key × Node)) (members : Members) (name : String) :
    Option Members := do
  let start : Members ←
    match members.lookup name with
    | none => some []
    | some (.table .implied inner) => some inner
    | some _ => none
  return members.put name (.table .headed (← start.defineAll definitions))

def addItem (definitions : List (Key × Node)) (members : Members) (name : String) :
    Option Members := do
  let tables ←
    match members.lookup name with
    | none => some []
    | some (.tables tables) => some tables
    | some _ => none
  return members.put name (.tables (tables ++ [← Members.defineAll [] definitions]))

def apply (tree : Members) (part : Section) : Option Members :=
  match part.header with
  | .table key => tree.within (describe part.definitions) key.first key.rest
  | .item key => tree.within (addItem part.definitions) key.first key.rest

def applyAll (tree : Members) : List Section → Option Members
  | [] => some tree
  | part :: rest => do applyAll (← part.apply tree) rest

end Section

end CodeCapsules.Toml
