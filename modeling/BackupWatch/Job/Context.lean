import BackupWatch.Cluster.Managed
import BackupWatch.Job.Namespaces
import BackupWatch.Resource.Hosted
import BackupWatch.Text.Quoted
import BackupWatch.Watch.Object
import BackupWatch.Error

/-!
The context of a backup job: the backup, what it includes, and the hosted workload that it
captures. The context is completed from the control plane of the workload.
-/

namespace BackupWatch.Job

open Cluster Resource Watch

structure Context where
  backup : String
  /-- The namespace of the backup object, where its data jobs are made. -/
  backupNamespace : String
  included : Namespaces
  highlyAvailable : Bool
  /-- A migration leaves the workload paused. -/
  migration : Bool
  /-- Volumes are backed up as file systems instead of snapshots. -/
  fileSystem : Bool
  platform : Platform
  hostedCluster : Option Managed
  controlPlane : Option Identity
  deriving Inhabited

/-- Why the hosted workload of a backup could not be found. -/
inductive DiscoveryFault
  | noControlPlane (searched : List String)
  | planeWithoutNamespace (name : String)
  | planeWithoutCluster (ns name : String)
  | noHostedCluster (backup : String)
  deriving DecidableEq, Repr, Inhabited

namespace DiscoveryFault

def message : DiscoveryFault → String
  | noControlPlane searched =>
    "no HostedControlPlane in namespaces "
      ++ Text.bracketed "\x7b" "\x7d" (searched.map Text.quoted)
  | planeWithoutNamespace name => "HostedControlPlane " ++ name ++ " has no namespace"
  | planeWithoutCluster ns name =>
    "HostedControlPlane " ++ ns ++ "/" ++ name ++ " does not name its HostedCluster"
  | noHostedCluster backup => "backup " ++ backup ++ " has no HostedCluster to pause"

def toError (f : DiscoveryFault) : Error := .discovery f.message

end DiscoveryFault

namespace Context

def new (backup backupNamespace : String) (included : List String) : Context where
  backup
  backupNamespace
  included := .ofList included
  highlyAvailable := false
  migration := false
  fileSystem := false
  platform := .none
  hostedCluster := none
  controlPlane := none

/-- Units of work that each kind must complete: one per replica of the control plane. -/
def expectedUnits (ctx : Context) : Nat := if ctx.highlyAvailable then 3 else 1

def includes (ctx : Context) (ns : String) : Bool := ctx.included.contains ns

/-- Takes availability, platform and the two identities from a control plane. -/
def applyControlPlane (ctx : Context) (plane : ControlPlane) : Except DiscoveryFault Context :=
  let name := plane.metadata.shownName
  match plane.metadata.ns with
  | none => .error (.planeWithoutNamespace name)
  | some ns =>
    match plane.clusterReference with
    | none => .error (.planeWithoutCluster ns name)
    | some (clusterNs, clusterName) =>
      .ok { ctx with
        highlyAvailable := plane.isHighlyAvailable
        platform := (plane.spec.platform.map PlatformSpec.type).getD .none
        controlPlane := some ⟨name, some ns⟩
        hostedCluster := some ⟨.hostedCluster, clusterNs, clusterName⟩ }

end Context
end BackupWatch.Job
