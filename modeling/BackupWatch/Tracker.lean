import BackupWatch.Config.Basic
import BackupWatch.Job.Progress
import BackupWatch.Pause.Orchestrator

/-!
The tracker of one backup. It is handed every item that the backup captures. Items of the
control plane make sure that the hosted workload is paused before its data is copied; any other
item in an included namespace triggers one pass over the data-movement checks, and when these
have finished the workload is resumed, unless the backup is a migration.
-/

namespace BackupWatch

open Cluster Job Pause Watch

/-- One object captured by the backup. -/
structure Item where
  kind : String
  ns : Option String
  name : String
  deriving DecidableEq, Repr, Inhabited

namespace Item

def isControlPlane (item : Item) : Bool :=
  ["HostedControlPlane", "HostedCluster", "NodePool"].contains item.kind

def text (item : Item) : String := item.kind ++ " " ++ (Identity.mk item.name item.ns).text

end Item

/-- What the tracker did with an item. -/
inductive ItemAction
  /-- The workload is paused. -/
  | paused
  /-- Data is still being moved. -/
  | pending
  /-- All data is durable and the workload runs again. -/
  | resumed
  /-- All data is durable; the workload stays paused for a migration. -/
  | leftPaused
  /-- The item does not concern the tracker. -/
  | ignored
  deriving DecidableEq, Repr, Inhabited

def ItemAction.text : ItemAction → String
  | paused => "Paused"
  | pending => "Pending"
  | resumed => "Resumed"
  | leftPaused => "LeftPaused"
  | ignored => "Ignored"

structure Tracker where
  ctx : Context
  /-- Deadline and pace of each stage. -/
  upload : Poll.Settings
  progress : Progress
  orchestrator : Orchestrator
  /-- The workload has been paused for this backup. -/
  paused : Bool
  /-- The workload has been resumed after this backup. -/
  resumed : Bool

namespace Tracker

/-- The configuration may make a migration of a backup that was none. -/
def new (ctx : Context) (config : Config) : Tracker :=
  let ctx := { ctx with migration := ctx.migration || config.migration }
  { ctx
    upload := config.upload
    progress := .fresh (.forJob ctx)
    orchestrator := .new config.retry config.propagation
    paused := false
    resumed := false }

def isFinished (t : Tracker) : Bool := t.progress.finished

variable {κ σ : Type}

/-- The first control plane in the first namespace that has any. -/
def findControlPlane (client : Client κ) : List String → Act κ σ (Option Resource.ControlPlane)
  | [] => return none
  | ns :: rest => do
    let planes : List Resource.ControlPlane ← client.ask (.controlPlanesIn ns)
    match planes with
    | [] => findControlPlane client rest
    | plane :: _ => return some plane

def liftDiscovery (result : Except DiscoveryFault α) : Act κ σ α :=
  Act.ofExcept (result.mapError DiscoveryFault.toError)

/-- A tracker for a context completed from the control plane that the namespaces hold. -/
def discover (client : Client κ) (ctx : Context) (config : Config) : Act κ σ Tracker := do
  match ← findControlPlane client ctx.included.names with
  | none => Act.fail (DiscoveryFault.noControlPlane ctx.included.names).toError
  | some plane => return new (← liftDiscovery (ctx.applyControlPlane plane)) config

def onProgress (act : Act κ Progress α) : Act κ Tracker α :=
  Act.within Tracker.progress (fun progress t => { t with progress }) act

def onOrchestrator (act : Act κ Orchestrator α) : Act κ Tracker α :=
  Act.within Tracker.orchestrator (fun orchestrator t => { t with orchestrator }) act

/-- The hosted cluster, without which nothing can be paused. -/
def hostedCluster (ctx : Context) : Except DiscoveryFault Managed :=
  match ctx.hostedCluster with
  | some cluster => .ok cluster
  | none => .error (.noHostedCluster ctx.backup)

/-- Pauses once per job. The leftovers of earlier attempts are recorded first, while this job
has not made any objects. -/
def ensurePaused (client : Client κ) : Act κ Tracker Unit := do
  let t ← Act.own
  if t.paused then return
  onProgress (Progress.seedAll client t.ctx)
  let cluster ← liftDiscovery (hostedCluster t.ctx)
  onOrchestrator (Orchestrator.pause client cluster t.ctx.controlPlane)
  Act.setOwn { ← Act.own with paused := true }

/-- Resumes once per job, and never after a migration. -/
def resumeOnce (client : Client κ) : Act κ Tracker Unit := do
  let t ← Act.own
  if t.resumed then return
  if t.ctx.migration then return
  let cluster ← liftDiscovery (hostedCluster t.ctx)
  onOrchestrator (Orchestrator.resume client cluster)
  Act.setOwn { ← Act.own with resumed := true }

def finishedAction (t : Tracker) : ItemAction :=
  if t.ctx.migration then .leftPaused else .resumed

/-- Resumes and tells what has become of the workload. -/
def conclude (client : Client κ) : Act κ Tracker ItemAction := do
  resumeOnce client
  return finishedAction (← Act.own)

/-- One pass over the checks, which leaves the pause fields alone. -/
def check (client : Client κ) : Act κ Tracker (List Outcome) := do
  onProgress (Progress.pass client (← Act.own).ctx)

/-- Handles an item that is none of the control plane. -/
def executeData (client : Client κ) : Act κ Tracker ItemAction := do
  if !(← Act.own).isFinished then
    let _ ← check client
    if !(← Act.own).isFinished then return .pending
  conclude client

/-- Handles one item of the backup. -/
def execute (client : Client κ) (item : Item) : Act κ Tracker ItemAction := do
  if item.isControlPlane then
    ensurePaused client
    return .paused
  if !item.ns.any (← Act.own).ctx.includes then return .ignored
  executeData client

/-- Waits until all data is durable, then resumes. -/
def finalize (client : Client κ) : Act κ Tracker ItemAction := do
  let t ← Act.own
  onProgress (Progress.wait client t.ctx t.upload)
  conclude client

end Tracker
end BackupWatch
