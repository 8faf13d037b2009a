import CodeCapsules.Disk.Error
import CodeCapsules.Flash.Error
import CodeCapsules.Store.Error
import CodeCapsules.ValueError

/-!
Contract: why a command fails, and how that is told.
-/

namespace CodeCapsules

/-- Why a command fails. -/
inductive Failure where
  | configUnreadable (path : String) (cause : DiskError)
  /-- The file holds no configuration. -/
  | configMalformed (path : String)
  /-- There is an image, and it may not be replaced. -/
  | imageExists (path : String)
  | imageUnreadable (path : String) (cause : Flash.Error)
  | imageUnwritable (path : String) (cause : Flash.Error)
  | codeUnreadable (path : String) (cause : DiskError)
  /-- The image cannot be laid out. -/
  | layout (cause : Flash.Error)
  | store (cause : Store.Error)
  /-- A hash or a width does not exist. -/
  | value (cause : ValueError)
deriving DecidableEq, Repr

namespace Failure

/-- What the command was about, if that is told ahead of the causes. -/
def context? : Failure → Option String
  | .configUnreadable path _ => some s!"reading config {path}"
  | .configMalformed path => some s!"parsing config {path}"
  | .imageUnreadable path _ => some s!"loading image {path}"
  | .imageUnwritable path _ => some s!"saving image {path}"
  | .codeUnreadable path _ => some s!"reading code {path}"
  | _ => none

/-- The causes, the nearest first. -/
def causes : Failure → List String
  | .configUnreadable _ cause => [cause.message]
  | .configMalformed _ => ["not a configuration"]
  | .imageExists path => [s!"{path} already exists (use --force to replace it)"]
  | .imageUnreadable _ cause => cause.chain
  | .imageUnwritable _ cause => cause.chain
  | .codeUnreadable _ cause => [cause.message]
  | .layout cause => cause.chain
  | .store cause => cause.chain
  | .value cause => [cause.message]

/-- All that is told about a failure, in order. -/
def chain (failure : Failure) : List String := failure.context?.toList ++ failure.causes

end Failure

end CodeCapsules
