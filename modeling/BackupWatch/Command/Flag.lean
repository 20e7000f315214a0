import BackupWatch.Numeral.Unsigned

/-!
The options of the command line, the environment variables that stand in for them, and the
values that they accept.
-/

namespace BackupWatch.Command

/-- Why a command line is not carried out. Asking for help or for the version is one of the
reasons. -/
inductive Refusal
  | missingArgument
  /-- A value is missing or is none of the possible ones. -/
  | invalidValue
  /-- A value is no number. -/
  | invalidNumber
  | unknownArgument
  | unknownCommand
  | missingCommand
  /-- An option is given twice. -/
  | repeated
  /-- A switch is given a value. -/
  | unwantedValue
  | help
  | version
  /-- Nothing was asked for. -/
  | nothingGiven
  deriving DecidableEq, Repr, Inhabited

/-- The exit code of the program. -/
def Refusal.exitCode : Refusal → Nat
  | help => 0
  | version => 0
  | _ => 2

inductive LogFormat
  | text
  | json
  deriving DecidableEq, Repr, Inhabited

inductive Flag
  | backupName
  | backupNamespace
  | included
  | config
  | uploadTimeout
  | uploadPace
  | propagationTimeout
  | migration
  | fileSystem
  | logFormat
  deriving DecidableEq, Repr, Inhabited

namespace Flag

/-- The name behind the two dashes. -/
def name : Flag → String
  | backupName => "backup-name"
  | backupNamespace => "backup-namespace"
  | included => "namespace"
  | config => "config"
  | uploadTimeout => "data-upload-timeout"
  | uploadPace => "data-upload-check-pace"
  | propagationTimeout => "propagation-timeout"
  | migration => "migration"
  | fileSystem => "fs-backup"
  | logFormat => "log-format"

def variableName : Flag → String
  | backupName => "BACKUP_NAME"
  | backupNamespace => "VELERO_NAMESPACE"
  | included => "INCLUDED_NAMESPACES"
  | config => "PLUGIN_CONFIG"
  | uploadTimeout => "DATA_UPLOAD_TIMEOUT"
  | uploadPace => "DATA_UPLOAD_CHECK_PACE"
  | propagationTimeout => "PROPAGATION_TIMEOUT"
  | migration => "MIGRATION"
  | fileSystem => "DEFAULT_VOLUMES_TO_FS_BACKUP"
  | logFormat => "LOG_FORMAT"

/-- Switches take no value. -/
def isSwitch : Flag → Bool
  | migration => true
  | fileSystem => true
  | _ => false

/-- Only the namespaces may be given more than once. -/
def isRepeatable (f : Flag) : Bool := f == included

/-- The options of a job, in the order in which their variables are read. -/
def ofJob : List Flag :=
  [backupName, backupNamespace, included, config, uploadTimeout, uploadPace, propagationTimeout,
    migration, fileSystem, logFormat]

end Flag

/-- The value of an option. -/
inductive Argument
  | text (value : String)
  | texts (values : List String)
  | number (value : Nat)
  | switch (on : Bool)
  | format (value : LogFormat)
  deriving DecidableEq, Repr, Inhabited

/-- Reads the raw value of an option. A list of namespaces is separated by commas, and a path
must not be empty. -/
def Flag.read (flag : Flag) (raw : String) : Except Refusal Argument :=
  let number : Except Refusal Argument :=
    match Numeral.unsigned raw with
    | .ok n => .ok (.number n)
    | .error _ => .error .invalidNumber
  let switch : Except Refusal Argument :=
    match Numeral.truthValue raw with
    | .ok on => .ok (.switch on)
    | .error _ => .error .invalidValue
  match flag with
  | .backupName => .ok (.text raw)
  | .backupNamespace => .ok (.text raw)
  | .included => .ok (.texts (raw.splitOn ","))
  | .config => if raw = "" then .error .invalidValue else .ok (.text raw)
  | .uploadTimeout => number
  | .uploadPace => number
  | .propagationTimeout => number
  | .migration => switch
  | .fileSystem => switch
  | .logFormat =>
    if raw = "text" then .ok (.format .text)
    else if raw = "json" then .ok (.format .json)
    else .error .invalidValue

end BackupWatch.Command
