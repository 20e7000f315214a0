import BackupWatch.Command.Flag

/-!
Reading a command line. An option given on the command line outweighs its variable, and that the
standard value. A value that stands apart from its option is judged only when the next option
begins or the command line ends; everything behind a command name belongs to the command, which
is judged before the options in front of it.
-/

namespace BackupWatch.Command

structure JobArguments where
  backupName : String
  backupNamespace : String
  namespaces : List String
  config : Option String
  /-- Minutes. -/
  uploadTimeout : Option Nat
  /-- Seconds. -/
  uploadPace : Option Nat
  /-- Seconds. -/
  propagationTimeout : Option Nat
  migration : Bool
  fileSystem : Bool
  deriving DecidableEq, Repr, Inhabited

inductive Request
  /-- Pause the workload, wait until its data is durable, resume it. -/
  | track (job : JobArguments)
  /-- Show the progress of a backup and change nothing. -/
  | status (job : JobArguments)
  | version
  deriving DecidableEq, Repr, Inhabited

structure Arguments where
  logFormat : LogFormat
  request : Request
  deriving DecidableEq, Repr, Inhabited

/-- Where a value comes from, the weaker first. -/
inductive Source
  | environment
  | commandLine
  deriving DecidableEq, Repr, Inhabited

structure Given where
  flag : Flag
  source : Source
  argument : Argument
  deriving DecidableEq, Repr, Inhabited

/-- The options found so far. -/
abbrev Found := List Given

namespace Found

def find? (found : Found) (flag : Flag) : Option Given := List.find? (fun g => g.flag == flag) found

/-- Adds to the values of a repeatable option. -/
def join : Argument → Argument → Argument
  | .texts a, .texts b => .texts (a ++ b)
  | _, b => b

def insert (found : Found) (flag : Flag) (source : Source) (argument : Argument) : Found :=
  match found.find? flag with
  | some g =>
    found.map fun h => if h.flag = flag then { h with argument := join g.argument argument } else h
  | none => found ++ [⟨flag, source, argument⟩]

/-- Reads a value from the command line. -/
def give (found : Found) (flag : Flag) (raw : String) : Except Refusal Found :=
  if (found.find? flag).isSome && !flag.isRepeatable then .error .repeated
  else do return found.insert flag .commandLine (← flag.read raw)

/-- Fills in the variables of the options that were not given, in the order of the options. -/
def addVariables (environment : List (String × String)) : List Flag → Found → Except Refusal Found
  | [], found => .ok found
  | flag :: rest, found =>
    if (found.find? flag).isSome then addVariables environment rest found
    else
      match environment.lookup flag.variableName with
      | none => addVariables environment rest found
      | some raw => do
        let argument ← flag.read raw
        addVariables environment rest (found.insert flag .environment argument)

def text? (found : Found) (flag : Flag) : Option String :=
  match (found.find? flag).map Given.argument with
  | some (.text s) => some s
  | _ => none

def texts? (found : Found) (flag : Flag) : Option (List String) :=
  match (found.find? flag).map Given.argument with
  | some (.texts ss) => some ss
  | _ => none

def number? (found : Found) (flag : Flag) : Option Nat :=
  match (found.find? flag).map Given.argument with
  | some (.number n) => some n
  | _ => none

def isOn (found : Found) (flag : Flag) : Bool :=
  match (found.find? flag).map Given.argument with
  | some (.switch on) => on
  | _ => false

end Found

/-- An option that waits for its value, or whose value has not been judged yet. -/
structure Pending where
  flag : Flag
  raw : Option String
  deriving DecidableEq, Repr, Inhabited

/-- Judges the option that waits, if there is one. -/
def settle (found : Found) : Option Pending → Except Refusal Found
  | none => .ok found
  | some ⟨_, none⟩ => .error .invalidValue
  | some ⟨flag, some raw⟩ => found.give flag raw

/-- What an argument looks like. -/
inductive Shape
  /-- Two dashes alone: no option stands behind them. -/
  | separator
  | long (name : String) (value : Option String)
  | short (letter : Char)
  | word
  deriving DecidableEq, Repr, Inhabited

def shapeOf (argument : String) : Shape :=
  match argument.toList with
  | ['-', '-'] => .separator
  | '-' :: '-' :: cs =>
    let name := String.ofList (cs.takeWhile (· != '='))
    match cs.dropWhile (· != '=') with
    | _ :: value => .long name (some (String.ofList value))
    | [] => .long name none
  | '-' :: letter :: _ => .short letter
  | _ => .word

/-- Where the reading of a command stands. -/
structure Stand where
  found : Found
  pending : Option Pending
  deriving Repr, Inhabited

def Stand.start : Stand := ⟨[], none⟩

/-- Takes a long option. `versioned` commands can be asked for their version. -/
def takeLong (known : List Flag) (versioned : Bool) (stand : Stand) (name : String)
    (value : Option String) : Except Refusal Stand :=
  let special (refusal : Refusal) : Except Refusal Stand :=
    if value.isSome then .error .unwantedValue
    else do
      let _ ← settle stand.found stand.pending
      .error refusal
  if name = "help" then special .help
  else if name = "version" ∧ versioned then special .version
  else
    match known.find? fun f => f.name == name with
    | none => .error .unknownArgument
    | some flag =>
      match flag.isSwitch, value with
      | true, some _ => .error .unwantedValue
      | true, none => do
        let found ← settle stand.found stand.pending
        return ⟨← found.give flag "true", none⟩
      | false, some raw => do
        let found ← settle stand.found stand.pending
        return ⟨← found.give flag raw, none⟩
      | false, none => do return ⟨← settle stand.found stand.pending, some ⟨flag, none⟩⟩

def takeShort (versioned : Bool) (stand : Stand) (letter : Char) : Except Refusal Stand :=
  if letter = 'h' then do
    let _ ← settle stand.found stand.pending
    .error .help
  else if letter = 'V' ∧ versioned then do
    let _ ← settle stand.found stand.pending
    .error .version
  else .error .unknownArgument

/-- The option that still waits for its value. -/
def Stand.waiting (stand : Stand) : Option Flag :=
  match stand.pending with
  | some ⟨flag, none⟩ => some flag
  | _ => none

/-- Reads the arguments of a command, which has options only. -/
def readOptions (known : List Flag) : Stand → List String → Except Refusal Stand
  | stand, [] => .ok stand
  | stand, argument :: rest =>
    match shapeOf argument with
    | .separator => if rest = [] then .ok stand else .error .unknownArgument
    | .long name value => do readOptions known (← takeLong known false stand name value) rest
    | .short letter => do readOptions known (← takeShort false stand letter) rest
    | .word =>
      match stand.waiting with
      | some flag => readOptions known { stand with pending := some ⟨flag, some argument⟩ } rest
      | none => .error .unknownArgument

/-- Reads a command with the variables of its options. -/
def readCommand (known : List Flag) (environment : List (String × String))
    (arguments : List String) : Except Refusal Found := do
  let stand ← readOptions known .start arguments
  let found ← settle stand.found stand.pending
  found.addVariables environment known

/-- The job that the options describe; the backup and its namespaces have to be given. -/
def jobOf (found : Found) : Except Refusal JobArguments :=
  match found.text? .backupName, found.texts? .included with
  | some backupName, some namespaces =>
    .ok {
      backupName
      backupNamespace := (found.text? .backupNamespace).getD "openshift-adp"
      namespaces
      config := found.text? .config
      uploadTimeout := found.number? .uploadTimeout
      uploadPace := found.number? .uploadPace
      propagationTimeout := found.number? .propagationTimeout
      migration := found.isOn .migration
      fileSystem := found.isOn .fileSystem }
  | _, _ => .error .missingArgument

/-- Help on commands: each word has to be a command of the one before, and no command but the
program itself has any. -/
def readHelp : List String → Refusal
  | [] => .help
  | [name] =>
    if ["track", "status", "version", "help"].contains name then .help else .unknownCommand
  | _ => .unknownCommand

/-- A command with its options. -/
def readNamed (name : String) (environment : List (String × String)) (arguments : List String) :
    Except Refusal (Request × Found) := do
  if name = "version" then
    return (.version, ← readCommand [.logFormat] environment arguments)
  let found ← readCommand Flag.ofJob environment arguments
  let job ← jobOf found
  return (if name = "track" then .track job else .status job, found)

/-- The log format of the command or of the program, whichever has the stronger source; the
command's if they are equally strong. -/
def chooseFormat (outer inner : Found) : LogFormat :=
  let chosen :=
    match outer.find? .logFormat, inner.find? .logFormat with
    | some o, some i =>
      if o.source = Source.commandLine ∧ i.source = Source.environment then some o else some i
    | some o, none => some o
    | none, i => i
  match chosen.map Given.argument with
  | some (.format f) => f
  | _ => .text

/-- The end of a command line without a command. -/
def withoutCommand (environment : List (String × String)) (stand : Stand) :
    Except Refusal Arguments := do
  let found ← settle stand.found stand.pending
  let found ← found.addVariables environment [.logFormat]
  .error (if found = [] then .nothingGiven else .missingCommand)

/-- Reads the options of the program and then its command. -/
def readFrom (environment : List (String × String)) : Stand → List String →
    Except Refusal Arguments
  | stand, [] => withoutCommand environment stand
  | stand, argument :: rest =>
    match shapeOf argument with
    | .separator =>
      match rest with
      | [] => withoutCommand environment stand
      | word :: _ =>
        .error (if ["track", "status", "version", "help"].contains word then .unknownArgument
          else .unknownCommand)
    | .long name value => do
      readFrom environment (← takeLong [.logFormat] true stand name value) rest
    | .short letter => do readFrom environment (← takeShort true stand letter) rest
    | .word =>
      match stand.waiting with
      | some flag =>
        readFrom environment { stand with pending := some ⟨flag, some argument⟩ } rest
      | none =>
        if argument = "help" then .error (readHelp rest)
        else if ["track", "status", "version"].contains argument then do
          let (request, inner) ← readNamed argument environment rest
          let outer ← settle stand.found stand.pending
          let outer ← outer.addVariables environment [.logFormat]
          return ⟨chooseFormat outer inner, request⟩
        else .error .unknownCommand

/-- Reads a command line, without the program's name. -/
def readArguments (environment : List (String × String)) (arguments : List String) :
    Except Refusal Arguments :=
  readFrom environment .start arguments

end BackupWatch.Command
