import CodeCapsules.Bytes.Basic
import CodeCapsules.Disk.Error

/-!
Contract: what commands need of a disk.
-/

namespace CodeCapsules

/-- A disk with files under paths. -/
class Disk (σ : Type) where
  /-- Whether something has this path. -/
  contains : σ → (path : String) → Bool
  /-- The contents of a file. -/
  read : σ → (path : String) → Except DiskError Bytes
  /-- Writes a file, in place of one that is there, and makes the folders above
  it. A failed attempt may have made some of them. -/
  write : σ → (path : String) → (contents : Bytes) → Except DiskError Unit × σ

end CodeCapsules
