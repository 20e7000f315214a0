import BackupWatch.Cluster.Call
import BackupWatch.Cluster.Client

/-!
The API server as a client sees it: it answers calls with raw values. A client is made of it by
reading the answers as the resources they should be.
-/

namespace BackupWatch.Cluster

open Resource Watch
open Json (Reader readArray readInteger readMembers readText)

/-- An API server with a state; it answers at once. -/
structure Api (κ : Type) where
  serve : Call → (clock : Nat) → κ → Except ApiStatus Json × κ

namespace Api

variable {κ : Type}

/-- A status refuses a call only under an error code. Under any other it is taken for what was
asked for, which it never is. -/
def refusal (status : ApiStatus) : Error :=
  if 400 ≤ status.code ∧ status.code < 600 then .api status else .malformedAnswer

/-- Makes a request, if it can be made. -/
def request (api : Api κ) (call : Call) (clock : Nat) (cluster : κ) : Except Error Json × κ :=
  if call.canBuild then
    let (result, later) := api.serve call clock cluster
    (result.mapError refusal, later)
  else (.error .invalidRequest, cluster)

/-- Reads an answer as what it should be. -/
def decode (read : Reader α) (value : Json) : Except Error α :=
  match read value with
  | some a => .ok a
  | none => .error .malformedAnswer

/-- What a list says about itself; nothing of it is used. -/
def readListMetadata (value : Json) : Option Unit := do
  let fields ← readMembers value
  let _ ← fields.optional "continue" readText
  let _ ← fields.optional "remainingItemCount" readInteger
  let _ ← fields.optional "resourceVersion" readText
  let _ ← fields.optional "selfLink" readText

/-- The items of a list, of which one malformed object spoils the whole. Null is no items. -/
def readList (read : Reader α) (value : Json) : Option (List α) := do
  let fields ← readMembers value
  fields.defaulted "metadata" () readListMetadata
  match ← fields.find? "items" with
  | .null => return []
  | items => readArray read items

/-- Reads a list. A resource that is not served has no objects. -/
def decodeList (read : Reader α) : Except Error Json → Except Error (List α)
  | .ok value => decode (readList read) value
  | .error e => if e.isNotFound then .ok [] else .error e

/-- An object that may be missing, which the server tells by its reason. -/
def decodeOptional (read : Reader α) : Except Error Json → Except Error (Option α)
  | .ok value => (decode read value).map some
  | .error (.api status) =>
    if status.reason = "NotFound" then .ok none else .error (.api status)
  | .error e => .error e

/-- The pause field of a managed object, with its version. -/
def pauseField (kind : ManagedKind) (value : Json) : Except Error PauseField :=
  match kind with
  | .hostedCluster => do
    let cluster ← decode HostedCluster.read value
    return ⟨cluster.spec.pausedUntil, cluster.metadata.resourceVersion⟩
  | .nodePool => do
    let pool ← decode NodePool.read value
    return ⟨pool.spec.pausedUntil, pool.metadata.resourceVersion⟩

/-- The pools that name the cluster as theirs. -/
def poolsOf (cluster : Managed) (pools : List NodePool) : List Managed :=
  (pools.filter fun p => p.spec.clusterName == cluster.name).map fun p =>
    ⟨.nodePool, cluster.ns, p.metadata.shownName⟩

/-- Contents are cluster-wide, so a namespace does not narrow their list. -/
def listNamespace (kind : Kind) (ns : Option String) : Option String :=
  match kind with
  | .snapshotContent => none
  | .snapshot => ns
  | .dataUpload => ns
  | .volumeBackup => ns

/-- The call that a request makes. -/
def callOf : Request → Call
  | .list kind ns => .list (.ofKind kind) (listNamespace kind ns)
  | .readPause object => .get (.ofManaged object.kind) (some object.ns) object.name
  | .writePause object observed value =>
    .patch (.ofManaged object.kind) (some object.ns) object.name ⟨observed.version, value⟩
  | .nodePools cluster => .list .nodePool (some cluster.ns)
  | .controlPlane id => .get .controlPlane id.ns id.name
  | .controlPlanesIn ns => .list .controlPlane (some ns)

/-- Reads the result of a call as the answer to its request. A patched object is read, too. -/
def answerOf : (request : Request) → Except Error Json → Except Error request.Answer
  | .list kind _, result => decodeList (Object.read kind) result
  | .readPause object, result => result.bind (pauseField object.kind)
  | .writePause object _ _, result => (result.bind (pauseField object.kind)).map fun _ => ()
  | .nodePools cluster, result => (decodeList NodePool.read result).map (poolsOf cluster)
  | .controlPlane _, result => decodeOptional ControlPlane.read result
  | .controlPlanesIn _, result => decodeList ControlPlane.read result

/-- The client of an API server. Requests take no time. -/
def client (api : Api κ) : Client κ where
  accepts request := (callOf request).canBuild
  reply request clock cluster :=
    let (result, later) := api.request (callOf request) clock cluster
    ⟨answerOf request result, 0, later⟩

end Api
end BackupWatch.Cluster
