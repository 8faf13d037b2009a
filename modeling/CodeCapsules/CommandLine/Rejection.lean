/-!
Contract: why arguments are not carried out.

Asking for help or for the version counts as one of the reasons, since no
command is carried out then either.
-/

namespace CodeCapsules.CommandLine

/-- Why arguments are not carried out. -/
inductive Rejection where
  /-- There are no arguments at all. -/
  | nothingAsked
  | helpAsked
  | versionAsked
  | commandMissing
  | commandUnknown
  | argumentMissing
  | argumentUnknown
  | argumentRepeated
  /-- A value is missing or empty. -/
  | valueMissing
  /-- A value is none of those that can be chosen from. -/
  | valueUnknown
  /-- A value follows an argument that takes none. -/
  | valueUnwanted
  /-- A value cannot be read. -/
  | valueMalformed (reason : String)
deriving DecidableEq, Repr

def Rejection.message : Rejection → String
  | .nothingAsked => "a command is needed"
  | .helpAsked => "help"
  | .versionAsked => "version"
  | .commandMissing => "a command is needed"
  | .commandUnknown => "there is no such command"
  | .argumentMissing => "an argument that the command needs is missing"
  | .argumentUnknown => "there is no such argument"
  | .argumentRepeated => "an argument is given more than once"
  | .valueMissing => "an argument needs a value"
  | .valueUnknown => "a value is none of those that can be chosen from"
  | .valueUnwanted => "an argument does not take a value"
  | .valueMalformed reason => "a value cannot be read: " ++ reason

end CodeCapsules.CommandLine
