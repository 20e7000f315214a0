import BackupWatch.Json.Reading

/-!
The infrastructure platform of a hosted cluster, and how many replicas its control plane runs.
Unknown platform names are accepted and become `other`; unknown policies are not.
-/

namespace BackupWatch.Resource

open Json

inductive Platform
  | aws
  | azure
  | gcp
  | kubeVirt
  | agent
  | openStack
  | ibmCloud
  | powerVS
  | none
  | other
  deriving DecidableEq, Repr, Inhabited

namespace Platform

def text : Platform → String
  | aws => "AWS"
  | azure => "Azure"
  | gcp => "GCP"
  | kubeVirt => "KubeVirt"
  | agent => "Agent"
  | openStack => "OpenStack"
  | ibmCloud => "IBMCloud"
  | powerVS => "PowerVS"
  | none => "None"
  | other => "Other"

def known : List Platform :=
  [aws, azure, gcp, kubeVirt, agent, openStack, ibmCloud, powerVS, none]

/-- The platform with this name, or `other`. -/
def ofName (name : String) : Platform :=
  (known.find? fun p => p.text == name).getD other

/-- A name given by hand; the empty one means no platform. -/
def ofText (text : String) : Platform := if text = "" then none else ofName text

def read : Reader Platform := fun value => (readWord value).map ofName

def write (p : Platform) : Json := .string p.text

@[simp] theorem ofName_text (p : Platform) : ofName p.text = p := by
  cases p <;> rfl

end Platform

structure PlatformSpec where
  type : Platform
  deriving DecidableEq, Repr, Inhabited

namespace PlatformSpec

def read (value : Json) : Option PlatformSpec := do
  let fields ← readRecord ["type"] value
  return { type := ← fields.defaulted "type" .none Platform.read }

def write (s : PlatformSpec) : Json := .object [("type", s.type.write)]

end PlatformSpec

inductive AvailabilityPolicy
  /-- Three replicas per control-plane component. -/
  | highlyAvailable
  | singleReplica
  deriving DecidableEq, Repr, Inhabited

namespace AvailabilityPolicy

def text : AvailabilityPolicy → String
  | highlyAvailable => "HighlyAvailable"
  | singleReplica => "SingleReplica"

def read : Reader AvailabilityPolicy := fun value => do
  let name ← readWord value
  if name = highlyAvailable.text then some highlyAvailable
  else if name = singleReplica.text then some singleReplica
  else none

def write (p : AvailabilityPolicy) : Json := .string p.text

end AvailabilityPolicy
end BackupWatch.Resource
