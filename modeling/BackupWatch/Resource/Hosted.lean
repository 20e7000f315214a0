import BackupWatch.Resource.Metadata
import BackupWatch.Resource.Platform

/-!
The resources of a hosted cluster: the cluster itself, its node pools, and its control plane,
which follows the pause field of the cluster and names the cluster in an annotation.
-/

namespace BackupWatch.Resource

open Json

structure HostedClusterSpec where
  pausedUntil : Option String
  platform : Option PlatformSpec
  availability : Option AvailabilityPolicy
  deriving DecidableEq, Repr, Inhabited

namespace HostedClusterSpec

def read (value : Json) : Option HostedClusterSpec := do
  let fields ← readRecord ["pausedUntil", "platform", "controllerAvailabilityPolicy"] value
  return {
    pausedUntil := ← fields.optional "pausedUntil" readText
    platform := ← fields.optional "platform" PlatformSpec.read
    availability := ← fields.optional "controllerAvailabilityPolicy" AvailabilityPolicy.read }

def write (s : HostedClusterSpec) : Json :=
  .object (optionalMember "pausedUntil" .string s.pausedUntil
    ++ optionalMember "platform" PlatformSpec.write s.platform
    ++ optionalMember "controllerAvailabilityPolicy" AvailabilityPolicy.write s.availability)

end HostedClusterSpec

structure NodePoolSpec where
  /-- The hosted cluster that the pool belongs to. -/
  clusterName : String
  pausedUntil : Option String
  deriving DecidableEq, Repr, Inhabited

namespace NodePoolSpec

def read (value : Json) : Option NodePoolSpec := do
  let fields ← readRecord ["clusterName", "pausedUntil"] value
  return {
    clusterName := ← fields.defaulted "clusterName" "" readText
    pausedUntil := ← fields.optional "pausedUntil" readText }

def write (s : NodePoolSpec) : Json :=
  .object (("clusterName", .string s.clusterName)
    :: optionalMember "pausedUntil" .string s.pausedUntil)

end NodePoolSpec

abbrev HostedCluster := Stored HostedClusterSpec

abbrev NodePool := Stored NodePoolSpec

/-- A control plane has the same specification as the cluster that it serves. -/
abbrev ControlPlane := Stored HostedClusterSpec

def HostedCluster.read (value : Json) : Option HostedCluster :=
  Stored.read HostedClusterSpec.read value

def NodePool.read (value : Json) : Option NodePool := Stored.read NodePoolSpec.read value

def ControlPlane.read (value : Json) : Option ControlPlane :=
  Stored.read HostedClusterSpec.read value

namespace ControlPlane

/-- The annotation that names the hosted cluster as `namespace/name`. -/
def clusterAnnotation : String := "hypershift.openshift.io/cluster"

/-- Splits at the first slash; both sides must hold something. -/
def splitReference (reference : String) : Option (String × String) :=
  let cs := reference.toList
  let before := cs.takeWhile (· != '/')
  match cs.dropWhile (· != '/') with
  | _ :: after =>
    if before = [] ∨ after = [] then none
    else some (String.ofList before, String.ofList after)
  | [] => none

/-- Namespace and name of the hosted cluster. -/
def clusterReference (plane : ControlPlane) : Option (String × String) := do
  let annotations ← plane.metadata.annotations
  splitReference (← annotations.find? clusterAnnotation)

def isHighlyAvailable (plane : ControlPlane) : Bool :=
  plane.spec.availability == some .highlyAvailable

end ControlPlane
end BackupWatch.Resource
