import BackupWatch.Command.Arguments
import BackupWatch.Config.Document
import BackupWatch.Job.Context

/-!
What the arguments of a job mean: its context, and its configuration, in which the options
outweigh the file.
-/

namespace BackupWatch.Command

/-- What ended a command: a failure, or the lack of a cluster. -/
inductive Cause
  | failure (cause : Failure)
  | noCluster
  deriving DecidableEq, Repr, Inhabited

/-- What a cause says, the outermost first. -/
def Cause.texts : Cause → List String
  | failure (.error e) => [e.text]
  | failure (.fault f) => [f.message]
  | noCluster => ["ServiceError: no cluster", "no cluster"]

/-- The cause, and what was being done, the outermost first. -/
structure Report where
  cause : Cause
  context : List String
  deriving DecidableEq, Repr, Inhabited

/-- What was being done, then the cause. -/
def Report.text (r : Report) : String := String.intercalate ": " (r.context ++ r.cause.texts)

/-- A result whose failure is reported as part of something. -/
def reported (context : List String) (result : Except Failure α) : Except Report α :=
  result.mapError fun f => ⟨.failure f, context⟩

/-- The configuration file that a request names. -/
def Request.configPath : Request → Option String
  | track job => job.config
  | status job => job.config
  | version => none

namespace JobArguments

def context (job : JobArguments) : Job.Context :=
  { Job.Context.new job.backupName job.backupNamespace job.namespaces with
    fileSystem := job.fileSystem }

/-- The settings that the options stand for. -/
def settings (job : JobArguments) : Config.Settings :=
  let number (key : Config.Key) (value : Option Nat) : Config.Settings :=
    match value with
    | some n => [(key.text, toString n)]
    | none => []
  number .uploadTimeout job.uploadTimeout ++ number .uploadPace job.uploadPace
    ++ number .propagationTimeout job.propagationTimeout
    ++ (if job.migration then [(Config.Key.migration.text, "true")] else [])

/-- The configuration of the file, overlaid with the options. Files are read through `file`. -/
def configuration (job : JobArguments) (file : String → Option ByteArray) :
    Except Report Config := do
  let base ← match job.config with
    | some path => reported ["loading " ++ path] do
        let settings ← (Config.settingsOfFile path (file path)).mapError .error
        (Config.ofSettings settings).mapError Config.Fault.toFailure
    | none => .ok .standard
  reported [] ((base.overlaid job.settings).mapError Config.Fault.toFailure)

end JobArguments
end BackupWatch.Command
