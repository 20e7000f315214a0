import BackupWatch.Error
import BackupWatch.Numeral.Unsigned
import BackupWatch.Poll
import BackupWatch.Retry
import BackupWatch.Text.Blank

/-!
The configuration of a tracker, read from a map of strings. The keys are read in a fixed order;
the first bad value ends the reading, and what was set before it stays set.
-/

namespace BackupWatch

open Time

structure Config where
  /-- Deadline and pace of the data-movement checks. -/
  upload : Poll.Settings
  /-- Deadline and pace of the wait for the control plane. -/
  propagation : Poll.Settings
  retry : Retry.Policy
  /-- Leave the workload paused once the backup has finished. -/
  migration : Bool
  deriving Repr, Inhabited

namespace Config

def standard : Config where
  upload := Poll.uploadDefaults
  propagation := Poll.propagationDefaults
  retry := .standard
  migration := false

/-- String values by key; a key stands for its first entry. -/
abbrev Settings := List (String × String)

namespace Settings

def find? (settings : Settings) (key : String) : Option String := List.lookup key settings

end Settings

inductive Key
  /-- Minutes. -/
  | uploadTimeout
  /-- Seconds, at least one. -/
  | uploadPace
  /-- Seconds. -/
  | propagationTimeout
  | migration
  deriving DecidableEq, Repr, Inhabited

def Key.text : Key → String
  | uploadTimeout => "dataUploadTimeout"
  | uploadPace => "dataUploadCheckPace"
  | propagationTimeout => "propagationTimeout"
  | migration => "migration"

inductive Fault
  | invalidValue (key : Key) (raw : String) (cause : Numeral.Fault)
  | paceTooShort
  /-- The minutes of the upload deadline are too many to be counted in seconds. -/
  | tooManyMinutes
  deriving DecidableEq, Repr, Inhabited

def Fault.message : Fault → String
  | invalidValue key raw cause =>
    "invalid value " ++ Text.quoted raw ++ " for " ++ key.text ++ ": " ++ cause.message
  | paceTooShort => Key.uploadPace.text ++ " must be at least one second"
  | tooManyMinutes => BackupWatch.Fault.productOutOfRange.message

def Fault.toError (f : Fault) : Error := .config f.message

/-- Too many minutes stop the program, and every other fault is an error. -/
def Fault.toFailure : Fault → Failure
  | tooManyMinutes => .fault .productOutOfRange
  | f => .error f.toError

/-- Reads the trimmed value of a key, if the key is there. -/
def value? (settings : Settings) (key : Key) (read : String → Except Numeral.Fault α) :
    Except Fault (Option α) :=
  match settings.find? key.text with
  | none => .ok none
  | some raw =>
    match read (Text.trim raw) with
    | .ok a => .ok (some a)
    | .error cause => .error (.invalidValue key raw cause)

/-- The minutes of the upload deadline, counted in seconds of 64 bits. -/
def setUploadTimeout (c : Config) (minutes : Nat) : Except Fault Config :=
  if minutes * 60 < Numeral.limit then
    .ok { c with upload := { c.upload with timeout := .ofSeconds (minutes * 60) } }
  else .error .tooManyMinutes

def setUploadPace (c : Config) (seconds : Nat) : Except Fault Config :=
  if seconds = 0 then .error .paceTooShort
  else .ok { c with upload := { c.upload with pace := .ofSeconds seconds } }

def setPropagationTimeout (c : Config) (seconds : Nat) : Except Fault Config :=
  .ok { c with propagation := { c.propagation with timeout := .ofSeconds seconds } }

def setMigration (c : Config) (migration : Bool) : Except Fault Config := .ok { c with migration }

/-- Applies one key, if it is there. -/
def applyKey (settings : Settings) (key : Key) (read : String → Except Numeral.Fault α)
    (change : Config → α → Except Fault Config) (c : Config) : Except Fault Config := do
  match ← value? settings key read with
  | none => return c
  | some a => change c a

/-- The changes of all keys in their order. -/
def changes (settings : Settings) : List (Config → Except Fault Config) :=
  [applyKey settings .uploadTimeout Numeral.unsigned setUploadTimeout,
   applyKey settings .uploadPace Numeral.unsigned setUploadPace,
   applyKey settings .propagationTimeout Numeral.unsigned setPropagationTimeout,
   applyKey settings .migration Numeral.truthValue setMigration]

/-- Makes changes up to the first that fails; what was changed before stays changed. -/
def applyEach : List (Config → Except Fault Config) → Config → Option Fault × Config
  | [], c => (none, c)
  | change :: rest, c =>
    match change c with
    | .ok next => applyEach rest next
    | .error fault => (some fault, c)

/-- Overlays the keys that are there. Returns what went wrong, if anything did, and the
configuration afterwards. -/
def apply (c : Config) (settings : Settings) : Option Fault × Config :=
  applyEach (changes settings) c

/-- The configuration with the keys overlaid, unless one of them is bad. -/
def overlaid (c : Config) (settings : Settings) : Except Fault Config :=
  match c.apply settings with
  | (none, next) => .ok next
  | (some fault, _) => .error fault

/-- Keys that are absent keep their standard value. -/
def ofSettings (settings : Settings) : Except Fault Config := standard.overlaid settings

end Config
end BackupWatch
