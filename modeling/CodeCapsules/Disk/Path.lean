import CodeCapsules.Disk.Error

/-!
Contract: paths as they are written.

Owns:
- the names between the slashes, and which of them count;
- the paths above a path;
- the limits that no disk goes beyond.
-/

namespace CodeCapsules

/-- A path, relative to the working folder unless it starts with a slash. -/
structure Path where
  isAbsolute : Bool
  /-- What stands between the slashes, or behind the first one of an absolute
  path. Where two slashes meet it is empty, and so it is behind a last one. -/
  names : List String
deriving DecidableEq, Repr

namespace Path

def ofText (text : String) : Path :=
  let names := text.splitOn "/"
  if text.toList.head? = some '/' then ⟨true, names.tail⟩ else ⟨false, names⟩

def toText (path : Path) : String :=
  (if path.isAbsolute then "/" else "") ++ String.intercalate "/" path.names

/-- The names that lead from folder to folder. -/
def steps (path : Path) : List String := path.names.filter fun name => !name.isEmpty

def endsInSlash (path : Path) : Bool := path.names.getLast? = some ""

/-- The beginnings of a path that end in a name that counts, the longest first.
Names are in reverse. A point counts only as the start of a relative path. -/
def beginnings (isAbsolute : Bool) : (reversed : List String) → List (List String)
  | [] => []
  | name :: rest =>
    let counts := !name.isEmpty && (name ≠ "." || (rest.isEmpty && !isAbsolute))
    if counts then (name :: rest) :: beginnings isAbsolute rest else beginnings isAbsolute rest

/-- The path without what adds nothing at its end, and the paths above it, the
nearest first. -/
def lineage (path : Path) : List Path :=
  (beginnings path.isAbsolute path.names.reverse).map fun names =>
    ⟨path.isAbsolute, names.reverse⟩

/-- The paths of the folders above, the nearest first. -/
def above (path : Path) : List Path := path.lineage.tail

/-- The longest name in bytes. -/
def longestName : Nat := 255

/-- The longest path in bytes. -/
def longestPath : Nat := 4095

/-- Refuses a path that no disk could take. -/
def check (path : Path) : Except DiskError Unit :=
  let text := path.toText
  if '\x00' ∈ text.toList then .error .zeroInPath
  else if text.isEmpty then .error .notFound
  else if longestPath < text.utf8ByteSize then .error .nameTooLong
  else .ok ()

end Path

end CodeCapsules
