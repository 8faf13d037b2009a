import CodeCapsules.CommandLine.Parse
import CodeCapsules.Disk.Path
import CodeCapsules.Script.Command

/-!
Contract: the command line program.

Owns:
- carrying out scripts on the disk of the system;
- the texts for help and for the version, and the exit codes.
-/

namespace CodeCapsules.Program

/-- The cause that stands for an error of the system. -/
def diskError : IO.Error → DiskError
  | .noFileOrDirectory .. => .notFound
  | .alreadyExists .. => .alreadyExists
  | .inappropriateType _ code _ => if code = 20 then .notDirectory else .isDirectory
  | error => .other (toString error)

/-- Runs an action and keeps its error. -/
def attempt {α : Type} (action : IO α) : IO (Except DiskError α) := do
  match ← action.toBaseIO with
  | .ok value => return .ok value
  | .error error => return .error (diskError error)

/-- Writes a file and makes the folders above it. -/
def writeFile (path : String) (contents : Bytes) : IO Unit := do
  if let some parent := (Path.ofText path).above.head? then IO.FS.createDirAll parent.toText
  IO.FS.writeBinFile path ⟨contents.toArray⟩

/-- Carries out a script, and shows events from `threshold` on. -/
def perform {α : Type} (threshold : Level) : Script α → IO (Outcome Failure α)
  | .finish outcome => return outcome
  | .probe path next => do
    let opened ← attempt (IO.FS.Handle.mk path .read)
    perform threshold (next opened.toBool)
  | .fetch path next => do
    let contents ← attempt (IO.FS.readBinFile path)
    perform threshold (next (contents.map fun bytes => bytes.toList))
  | .store path contents next => do
    perform threshold (next (← attempt (writeFile path contents)))
  | .print line next => do
    IO.println line
    perform threshold next
  | .report event next => do
    if event.level.passes threshold then IO.eprintln event.line
    perform threshold next

/-- The commands in a line each. -/
def helpText : String :=
  String.intercalate "\n"
    ["Inspect and edit the capsule container of a flash image", "",
      "Usage: capsule [OPTIONS] <COMMAND>", "",
      "Commands:",
      "  init     Create an image with an empty capsule container",
      "  list     List stored capsules",
      "  find     Look a capsule up by header",
      "  append   Append a capsule from a file of machine code",
      "  address  Show where a capsule's code lives",
      "  invoke   Run a capsule on the simulator",
      "  erase    Logically empty the container",
      "  help     Print this message", "",
      "Options:",
      "  -i, --image <IMAGE>    Flash image file to operate on",
      "  -c, --config <CONFIG>  TOML file with the store and the layout",
      "  -v, --verbose",
      "      --format <FORMAT>  text or json",
      "  -h, --help             Print help",
      "  -V, --version          Print version"]

def versionText : String := "capsule 0.1.0"

def sayRejection : CommandLine.Rejection → IO UInt32
  | .helpAsked => do
    IO.println helpText
    return 0
  | .versionAsked => do
    IO.println versionText
    return 0
  | .nothingAsked => do
    IO.eprintln helpText
    return 2
  | rejection => do
    IO.eprintln s!"error: {rejection.message}"
    return 2

def sayFailure (failure : Failure) : IO Unit := do
  match failure.chain with
  | [] => IO.eprintln "Error"
  | first :: causes =>
    IO.eprintln s!"Error: {first}"
    unless causes.isEmpty do
      IO.eprintln "\nCaused by:"
      causes.forM fun cause => IO.eprintln s!"    {cause}"

end CodeCapsules.Program

open CodeCapsules in
def main (arguments : List String) : IO UInt32 := do
  match CommandLine.Request.ofArguments arguments with
  | .error rejection => Program.sayRejection rejection
  | .ok request =>
    let coloured ← (← IO.getStdout).isTty
    match ← Program.perform request.threshold (request.script coloured) with
    | .ok () => return 0
    | .error (.refused failure) =>
      Program.sayFailure failure
      return 1
    | .error (.halted halt) =>
      IO.eprintln (halt.report?.getD "a range of bytes is out of bounds")
      return 101
