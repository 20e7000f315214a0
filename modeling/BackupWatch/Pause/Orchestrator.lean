import BackupWatch.Pause.Apply
import BackupWatch.Poll

/-!
The orchestrator pauses a hosted workload and resumes it: the hosted cluster first, then its
node pools, and when pausing, a wait in between until the control plane has followed. Both may
be repeated after a failure, since objects at the target are left alone.
-/

namespace BackupWatch.Pause

open Cluster Watch

inductive State
  | unknown
  | paused
  | unpausing
  | resumed
  deriving DecidableEq, Repr, Inhabited

def State.text : State → String
  | unknown => "Unknown"
  | paused => "Paused"
  | unpausing => "Unpausing"
  | resumed => "Resumed"

inductive Target
  | pause
  | resume
  deriving DecidableEq, Repr, Inhabited

namespace Target

/-- The value of the pause field that stands for the target. -/
def value : Target → String
  | pause => "true"
  | resume => "false"

def reached : Target → State
  | pause => .paused
  | resume => .resumed

end Target

structure Orchestrator where
  retry : Retry.Policy
  propagation : Poll.Settings
  /-- The objects that have been dealt with, each once. -/
  states : List (Managed × State)

namespace Orchestrator

def new (retry : Retry.Policy) (propagation : Poll.Settings) : Orchestrator :=
  ⟨retry, propagation, []⟩

def stateOf (o : Orchestrator) (object : Managed) : State :=
  (List.lookup object o.states).getD .unknown

def record (o : Orchestrator) (object : Managed) (state : State) : Orchestrator :=
  { o with states := (object, state) :: o.states.filter fun entry => entry.1 != object }

@[simp] theorem stateOf_record_self (o : Orchestrator) (object : Managed) (state : State) :
    (o.record object state).stateOf object = state := by
  simp [stateOf, record]

variable {κ : Type}

def recordState (object : Managed) (state : State) : Act κ Orchestrator Unit := do
  Act.setOwn ((← Act.own).record object state)

/-- Brings one object to a target. While a resume is under way the object is being unpaused. -/
def bring (client : Client κ) (target : Target) (object : Managed) : Act κ Orchestrator Unit := do
  if target = .resume then recordState object .unpausing
  let _ ← apply client (← Act.own).retry object target.value
  recordState object target.reached

def bringAll (client : Client κ) (target : Target) : List Managed → Act κ Orchestrator Unit
  | [] => return
  | object :: rest => do
    bring client target object
    bringAll client target rest

/-- One look at the control plane, which is done when it shows the value. -/
def propagated (client : Client κ) (plane : Identity) (value : String) :
    Act κ Orchestrator Poll.Status := do
  let found : Option Resource.ControlPlane ← client.ask (.controlPlane plane)
  match found with
  | none => return ⟨false, "control plane not found yet"⟩
  | some hcp => return ⟨hcp.spec.pausedUntil == some value, shownPause hcp.spec.pausedUntil⟩

def awaited (plane : Identity) (value : String) : String :=
  "HostedControlPlane " ++ plane.text ++ " pausedUntil=" ++ value

/-- Waits until the control plane has followed; without one there is nothing to wait for. -/
def awaitPropagation (client : Client κ) (plane : Option Identity) : Act κ Orchestrator Unit :=
  match plane with
  | none => return
  | some id => do
    let value := Target.pause.value
    let _ ← Poll.run (← Act.own).propagation (awaited id value)
      (propagated client id value)

def pause (client : Client κ) (cluster : Managed) (plane : Option Identity) :
    Act κ Orchestrator Unit := do
  bring client .pause cluster
  awaitPropagation client plane
  let pools : List Managed ← client.ask (.nodePools cluster)
  bringAll client .pause pools

def resume (client : Client κ) (cluster : Managed) : Act κ Orchestrator Unit := do
  bring client .resume cluster
  let pools : List Managed ← client.ask (.nodePools cluster)
  bringAll client .resume pools

end Orchestrator
end BackupWatch.Pause
