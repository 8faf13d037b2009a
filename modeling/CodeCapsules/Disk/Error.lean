/-!
Contract: why the disk did not do what was asked.
-/

namespace CodeCapsules

/-- Why a request to the disk failed. -/
inductive DiskError where
  /-- Nothing has this path. -/
  | notFound
  /-- A file or directory is in the way. -/
  | alreadyExists
  /-- A part of the path is a file and not a directory. -/
  | notDirectory
  /-- The path names a directory, and a file is asked for. -/
  | isDirectory
  /-- A part of the path is longer than the disk allows. -/
  | nameTooLong
  /-- The path holds a zero byte. -/
  | zeroInPath
  /-- The file is not text. -/
  | notText
  /-- Any other cause, with the report of the system. -/
  | other (report : String)
deriving DecidableEq, Repr

def DiskError.message : DiskError → String
  | .notFound => "No such file or directory (os error 2)"
  | .alreadyExists => "File exists (os error 17)"
  | .notDirectory => "Not a directory (os error 20)"
  | .isDirectory => "Is a directory (os error 21)"
  | .nameTooLong => "File name too long (os error 36)"
  | .zeroInPath => "file name contained an unexpected NUL byte"
  | .notText => "stream did not contain valid UTF-8"
  | .other report => report

end CodeCapsules
