import CodeCapsules.Store.Scan

/-!
Contract: looking capsules up by length and hash.

The first record with the header wins. Only headers are compared; code is
never read.

Owns:
- the answer of a lookup, with and without the generation of the store;
- the search, which stops at the first match.
-/

namespace CodeCapsules.Store

open Flash (Archive)

/-- Where a capsule is, or where it could go. -/
inductive Slot where
  /-- The capsule is stored, and its header starts here. -/
  | found (offset : Offset)
  /-- The capsule is not stored, and free space starts here. -/
  | free (offset : Offset)
deriving DecidableEq, Repr

namespace Slot

def isFound : Slot → Bool
  | .found _ => true
  | .free _ => false

def offset : Slot → Offset
  | .found offset => offset
  | .free offset => offset

end Slot

/-- The search from a point of the walk on. -/
def findFrom (archive : Archive) (length : UInt16) (hash : Hash) (scan : Scan) :
    Logged Error Slot :=
  match _stepped : scan.next archive with
  | (none, after) => ⟨.ok (.free after.offset), [.capsuleNotFound after.offset]⟩
  | (some (.error stop), _) => ⟨.error stop, itemEvents (.error stop)⟩
  | (some (.ok record), after) =>
    if record.header.describes length hash then
      ⟨.ok (.found record.offset), [.capsuleFound record.offset]⟩
    else
      let rest := findFrom archive length hash after
      ⟨rest.outcome, .capsuleSkipped record.offset record.header.length :: rest.events⟩
termination_by scan.remaining
decreasing_by exact Scan.remaining_next_lt _stepped

/-- Finds the capsule, or the free space behind all records. -/
def find (archive : Archive) (container : Container) (length : UInt16) (hash : Hash) :
    Logged Error Slot := do
  Logged.report (.lookupStarted length hash)
  findFrom archive length hash (.start container)

/-- The answer of a lookup in an open store. -/
inductive Lookup where
  /-- The capsule is stored, and the handle is good until the next erase. -/
  | found (handle : Handle)
  /-- The capsule is not stored, and free space starts here. -/
  | free (offset : Offset)
deriving DecidableEq, Repr

namespace Lookup

/-- The answer in a store of this generation. -/
def ofSlot (generation : Generation) : Slot → Lookup
  | .found offset => .found ⟨offset, generation⟩
  | .free offset => .free offset

def isFound : Lookup → Bool
  | .found _ => true
  | .free _ => false

def offset : Lookup → Offset
  | .found handle => handle.offset
  | .free offset => offset

end Lookup

end CodeCapsules.Store
