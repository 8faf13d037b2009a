import CodeCapsules.CommandLine.Grammar

/-!
Contract: reading the arguments of a request.

Arguments are read from left to right, and the first fault decides. A value
that stands by itself is looked at only when the next argument has been
recognised, or at the end. What is wrong behind the name of the command
therefore comes before what is wrong with the last value ahead of it.

Owns:
- switches by their long and short names, with values behind them;
- values without a name, also behind `--`;
- the name of the command, and the request for help about one.
-/

namespace CodeCapsules.CommandLine

/-- How far reading has come. -/
structure Progress where
  given : Given
  /-- The parameter whose value is awaited, or has not been looked at. -/
  pending : Option (Parameter × Option String)
  /-- The parameters without a name that are still open. -/
  positions : List Parameter
  /-- Whether all that follows are values. -/
  onlyValues : Bool

namespace Progress

def start (grammar : Grammar) : Progress := ⟨.nothing, none, grammar.positions, false⟩

/-- Takes the value of a parameter that has none yet. -/
def accept (progress : Progress) (parameter : Parameter) (text : String) :
    Except Rejection Progress :=
  if parameter.isGiven progress.given then .error .argumentRepeated
  else do return { progress with given := ← parameter.take progress.given text }

/-- Looks at a value that has not been looked at. -/
def settle (progress : Progress) : Except Rejection Progress :=
  match progress.pending with
  | none => .ok progress
  | some (_, none) => .error .valueMissing
  | some (parameter, some text) => { progress with pending := none }.accept parameter text

/-- Whether the next argument is a value, unless it looks like a switch. -/
def isAwaiting (progress : Progress) : Bool :=
  match progress.pending with
  | some (_, none) => true
  | _ => false

def await (progress : Progress) (parameter : Parameter) : Except Rejection Progress := do
  return { ← progress.settle with pending := some (parameter, none) }

def attach (progress : Progress) (parameter : Parameter) (text : String) :
    Except Rejection Progress := do
  (← progress.settle).accept parameter text

/-- Takes the value that is awaited. -/
def fill (progress : Progress) (text : String) : Progress :=
  { progress with pending := progress.pending.map fun (parameter, _) => (parameter, some text) }

def raise (progress : Progress) (isGiven : Given → Bool) (give : Given → Given) :
    Except Rejection Progress := do
  let progress ← progress.settle
  if isGiven progress.given then .error .argumentRepeated
  else return { progress with given := give progress.given }

/-- Gives an answer in place of a command. -/
def reply (progress : Progress) (rejection : Rejection) : Except Rejection Progress := do
  let _ ← progress.settle
  .error rejection

/-- Reads a switch by its long name, with what stands behind an equals sign. -/
def takeLong (progress : Progress) (grammar : Grammar) (name : String) (value : Option String) :
    Except Rejection Progress :=
  match grammar.switches.find? fun switch => switch.long == name with
  | none => .error .argumentUnknown
  | some switch =>
    match switch.purpose, value with
    | .parameter parameter, none => progress.await parameter
    | .parameter parameter, some text => progress.attach parameter text
    | .flag isGiven give, none => progress.raise isGiven give
    | .answer rejection, none => progress.reply rejection
    | _, some _ => .error .valueUnwanted

/-- Reads switches by their short names. A value follows the last of them
directly, behind an equals sign, or as the next argument. -/
def takeShort (grammar : Grammar) : Progress → List Char → Except Rejection Progress
  | progress, [] => .ok progress
  | progress, letter :: rest =>
    match grammar.switches.find? fun switch => switch.short == some letter with
    | none => .error .argumentUnknown
    | some switch =>
      match switch.purpose with
      | .flag isGiven give => do takeShort grammar (← progress.raise isGiven give) rest
      | .answer rejection => progress.reply rejection
      | .parameter parameter =>
        match rest with
        | [] => progress.await parameter
        | '=' :: text => progress.attach parameter (String.ofList text)
        | text => progress.attach parameter (String.ofList text)

end Progress

/-- The word that asks for help where a command could stand. -/
def helpWord : String := "help"

/-- Whether a word can stand where a command is expected. -/
def isCommandWord (word : String) : Bool :=
  word == helpWord || (CommandKind.ofText? word).isSome

/-- The answer to a request for help, which may name one command. -/
def helpAnswer : List String → Rejection
  | [] => .helpAsked
  | [word] => if isCommandWord word then .helpAsked else .commandUnknown
  | _ => .commandUnknown

inductive Step where
  /-- The next argument is read. -/
  | proceed (progress : Progress)
  /-- What follows belongs to a command. -/
  | enter (kind : CommandKind)
  /-- What follows says what help is asked for. -/
  | help

def takePosition (grammar : Grammar) (progress : Progress) (argument : String) :
    Except Rejection Progress :=
  match progress.positions with
  | parameter :: positions => do
    return { ← progress.settle with pending := some (parameter, some argument), positions }
  | [] =>
    if ¬ grammar.hasCommands ∨ (progress.onlyValues ∧ isCommandWord argument) then
      .error .argumentUnknown
    else .error .commandUnknown

/-- Reads an argument that is no name of a command. -/
def takeArgument (grammar : Grammar) (progress : Progress) (argument : String) :
    Except Rejection Progress :=
  if progress.onlyValues then takePosition grammar progress argument
  else
    match argument.toList with
    | ['-', '-'] => .ok { progress with onlyValues := true }
    | '-' :: '-' :: text =>
      let name := String.ofList (text.takeWhile (· != '='))
      match text.dropWhile (· != '=') with
      | [] => progress.takeLong grammar name none
      | _ :: value => progress.takeLong grammar name (some (String.ofList value))
    | '-' :: letter :: letters => Progress.takeShort grammar progress (letter :: letters)
    | _ =>
      if progress.isAwaiting then .ok (progress.fill argument)
      else takePosition grammar progress argument

/-- The command that an argument names at this point. -/
def namedCommand? (grammar : Grammar) (progress : Progress) (argument : String) : Option Step :=
  if ¬ grammar.hasCommands ∨ progress.onlyValues ∨ progress.isAwaiting then none
  else if argument = helpWord then some .help
  else (CommandKind.ofText? argument).map .enter

def step (grammar : Grammar) (progress : Progress) (argument : String) : Except Rejection Step :=
  match namedCommand? grammar progress argument with
  | some step => .ok step
  | none => do return .proceed (← takeArgument grammar progress argument)

/-- Reads arguments up to the end or the name of a command, and hands on what
stands behind it. -/
def readArguments (grammar : Grammar) :
    Progress → List String → Except Rejection (Progress × Option (CommandKind × List String))
  | progress, [] => .ok (progress, none)
  | progress, argument :: rest => do
    match ← step grammar progress argument with
    | .proceed progress => readArguments grammar progress rest
    | .enter kind => return (progress, some (kind, rest))
    | .help => .error (helpAnswer rest)

def readCommand (kind : CommandKind) (arguments : List String) :
    Except Rejection (Command × Given) := do
  let (progress, _) ← readArguments kind.grammar (.start kind.grammar) arguments
  let progress ← progress.settle
  match kind.command? progress.given with
  | some command => return (command, progress.given)
  | none => .error .argumentMissing

/-- The request that arguments stand for. What is given behind the name of the
command wins over what is given ahead of it. -/
def Request.ofArguments (arguments : List String) : Except Rejection Request := do
  let (progress, found) ← readArguments outerGrammar (.start outerGrammar) arguments
  match found with
  | none =>
    let progress ← progress.settle
    .error (if progress.given = .nothing then .nothingAsked else .commandMissing)
  | some (kind, rest) =>
    let (command, inner) ← readCommand kind rest
    let outer := (← progress.settle).given
    return {
      command
      image := (inner.image.or outer.image).getD standardImage
      config := inner.config.or outer.config
      verbose := inner.verbose || outer.verbose
      format := (inner.format.or outer.format).getD .text }

end CodeCapsules.CommandLine
