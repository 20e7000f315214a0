import BackupWatch.Command.Job
import BackupWatch.Tracker

/-!
The commands of the program, on a session whose own state is what has been printed.
-/

namespace BackupWatch.Command

open Cluster

/-- A command: a result or a report, and the session afterwards. -/
abbrev Run (κ α : Type) := ExceptT Report (StateM (Session κ (List String))) α

variable {κ : Type}

/-- Runs an act, reported as part of something. -/
def during (context : List String) (act : Act κ (List String) α) : Run κ α := fun s =>
  match act s with
  | (.ok a, later) => (.ok a, later)
  | (.error f, later) => (.error ⟨.failure f, context⟩, later)

def print (line : String) : Run κ Unit := modify fun s => { s with own := s.own ++ [line] }

def versionLine : String := "hcp-backup-tracker v0.1.0"

def discovering : List String := ["discovering the hosted control plane"]

/-- Pauses the workload, waits until its data is durable, and resumes it. -/
def track (client : Client κ) (job : JobArguments) (config : Config) : Run κ Unit := do
  let tracker ← during discovering (Tracker.discover client job.context config)
  let (_, tracker) ← during ["pausing the hosted workload"]
    (Act.runOn tracker (Tracker.ensurePaused client))
  let _ ← during ["tracking backup " ++ job.backupName]
    (Act.runOn tracker (Tracker.finalize client))

/-- Prints the pause field of an object as it is now. -/
def showPause (client : Client κ) (object : Managed) : Run κ Unit := do
  let field : PauseField ← during [] (client.ask (.readPause object))
  print (object.text ++ ": " ++ shownPause field.value)

/-- Prints the progress of one pass and the pause fields. -/
def status (client : Client κ) (job : JobArguments) (config : Config) : Run κ Unit := do
  let tracker ← during discovering (Tracker.discover client job.context config)
  let (outcomes, tracker) ← during [] (Act.runOn tracker (Tracker.check client))
  let ctx := tracker.ctx
  print ("Backup:  " ++ ctx.backupNamespace ++ "/" ++ ctx.backup)
  print ("Chain:   " ++ tracker.progress.chain.text ++ " (expecting "
    ++ toString ctx.expectedUnits ++ " per kind)")
  outcomes.forM fun outcome => print ("  " ++ outcome.text)
  print ("Finished: " ++ toString tracker.isFinished)
  match ctx.hostedCluster with
  | none => return
  | some cluster =>
    showPause client cluster
    let pools : List Managed ← during [] (client.ask (.nodePools cluster))
    pools.forM (showPause client)

/-- Carries out a request on a cluster, with its configuration. -/
def perform (client : Client κ) (request : Request) (config : Config) : Run κ Unit :=
  match request with
  | .version => print versionLine
  | .track job => track client job config
  | .status job => status client job config

/-- The report of a program that finds no cluster. -/
def noCluster : Report := ⟨.noCluster, ["connecting to the Kubernetes API server"]⟩

/-- What is printed, and how it ends, where there is no cluster. The configuration is read
first. -/
def performAlone (request : Request) (file : String → Option ByteArray) :
    List String × Except Report Unit :=
  match request with
  | .version => ([versionLine], .ok ())
  | .track job => ([], (job.configuration file).bind fun _ => .error noCluster)
  | .status job => ([], (job.configuration file).bind fun _ => .error noCluster)

end BackupWatch.Command
