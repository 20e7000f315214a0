import BackupWatch.Cluster.Managed
import BackupWatch.Watch.Kind

/-!
Calls of the API server, and the targets that their requests name as text. Namespaces and names
go into a target as they are, so not every call can be made, and a target may lead elsewhere
than its call meant.
-/

namespace BackupWatch.Cluster

open Watch

/-- The resources that the tracker asks for. -/
inductive Served
  | hostedCluster
  | nodePool
  | controlPlane
  | snapshotContent
  | snapshot
  | dataUpload
  | volumeBackup
  deriving DecidableEq, Repr, Inhabited

namespace Served

def name : Served → String
  | hostedCluster => "hostedclusters"
  | nodePool => "nodepools"
  | controlPlane => "hostedcontrolplanes"
  | snapshotContent => "volumesnapshotcontents"
  | snapshot => "volumesnapshots"
  | dataUpload => "datauploads"
  | volumeBackup => "podvolumebackups"

def groupVersion : Served → String
  | hostedCluster | nodePool | controlPlane => "hypershift.openshift.io/v1beta1"
  | snapshotContent | snapshot => "snapshot.storage.k8s.io/v1"
  | dataUpload => "velero.io/v2alpha1"
  | volumeBackup => "velero.io/v1"

def ofManaged : ManagedKind → Served
  | .hostedCluster => hostedCluster
  | .nodePool => nodePool

def ofKind : Kind → Served
  | .snapshotContent => snapshotContent
  | .snapshot => snapshot
  | .dataUpload => dataUpload
  | .volumeBackup => volumeBackup

end Served

/-- A change of the pause field, conditional on a version if one is given. -/
structure PausePatch where
  version : Option String
  value : String
  deriving DecidableEq, Repr, Inhabited

inductive Call
  | list (resource : Served) (ns : Option String)
  | get (resource : Served) (ns : Option String) (name : String)
  | patch (resource : Served) (ns : Option String) (name : String) (change : PausePatch)
  deriving DecidableEq, Repr, Inhabited

namespace Call

def resource : Call → Served
  | list r _ => r
  | get r _ _ => r
  | patch r _ _ _ => r

/-- The word in front of a namespace. -/
def scopeWord : List Char := "namespaces/".toList

def scope : Option String → List Char
  | none => []
  | some ns => scopeWord ++ ns.toList ++ ['/']

/-- The path below the group and version of the resource. -/
def path : Call → List Char
  | list r ns => scope ns ++ r.name.toList
  | get r ns name => scope ns ++ r.name.toList ++ '/' :: name.toList
  | patch r ns name _ => scope ns ++ r.name.toList ++ '/' :: name.toList

/-- The whole target. Lists and patches leave room for a query. -/
def target (call : Call) : List Char :=
  ("/apis/" ++ call.resource.groupVersion ++ "/").toList ++ call.path
    ++ match call with
      | get _ _ _ => []
      | _ => ['?']

/-- Characters that no target can hold: controls, the blank and angle brackets. -/
def isForbidden (c : Char) : Bool := c.toNat ≤ 0x20 || c.toNat == 0x7F || c == '<' || c == '>'

/-- The largest target, in bytes. -/
def targetLimit : Nat := 65534

/-- A target is judged up to a number sign. It must not hold a backtick before a question mark,
nor a double quote behind one. -/
def isTarget (cs : List Char) : Bool :=
  let judged := cs.takeWhile (· != '#')
  let place := judged.takeWhile (· != '?')
  let query := judged.dropWhile (· != '?')
  cs.foldl (fun size c => size + c.utf8Size) 0 ≤ targetLimit && judged.all (fun c => !isForbidden c)
    && place.all (fun c => c.toNat != 0x60) && query.all (· != '"')

def hasName : Call → Bool
  | list _ _ => true
  | get _ _ name => name != ""
  | patch _ _ name _ => name != ""

/-- Whether a request can be made: names must not be empty. -/
def canBuild (call : Call) : Bool := call.hasName && isTarget call.target

end Call
end BackupWatch.Cluster
