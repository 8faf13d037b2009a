import CodeCapsules.Address

/-!
Contract: references to stored capsules that an erase makes void.

Owns:
- the generation of a store, which each erase advances;
- the handle, an offset with the generation it was issued in.
-/

namespace CodeCapsules

/-- How often the container was erased since the store was opened, modulo
2^32. -/
structure Generation where
  value : UInt32
deriving DecidableEq, Repr

namespace Generation

def initial : Generation := ⟨0⟩

def next (generation : Generation) : Generation := ⟨generation.value + 1⟩

def text (generation : Generation) : String := s!"g{generation.value.toNat}"

end Generation

/-- A reference to a capsule, valid in the generation it was issued in. -/
structure Handle where
  offset : Offset
  generation : Generation
deriving DecidableEq, Repr

def Handle.text (handle : Handle) : String := s!"{handle.offset.text}@{handle.generation.text}"

end CodeCapsules
