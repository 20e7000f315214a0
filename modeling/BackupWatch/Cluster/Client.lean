import BackupWatch.Cluster.Managed
import BackupWatch.Resource.Hosted
import BackupWatch.Session
import BackupWatch.Watch.Object

/-!
Requests to the cluster, and clients that answer them. A client may answer as it likes, take
time, and change its own state; the tracker reaches the cluster in no other way.
-/

namespace BackupWatch.Cluster

open Resource Watch

inductive Request
  /-- All objects of a watched kind in a namespace, or everywhere. -/
  | list (kind : Kind) (ns : Option String)
  | readPause (object : Managed)
  /-- Sets the pause field, provided that the object is still at the version that was read. -/
  | writePause (object : Managed) (observed : PauseField) (value : String)
  /-- The node pools of a hosted cluster. -/
  | nodePools (cluster : Managed)
  | controlPlane (id : Identity)
  | controlPlanesIn (ns : String)
  deriving DecidableEq, Repr, Inhabited

/-- What a request asks for. -/
abbrev Request.Answer : Request → Type
  | list _ _ => List Object
  | readPause _ => PauseField
  | writePause _ _ _ => Unit
  | nodePools _ => List Managed
  | controlPlane _ => Option ControlPlane
  | controlPlanesIn _ => List ControlPlane

/-- An answer, the milliseconds that it took, and the cluster afterwards. -/
structure Reply (κ α : Type) where
  result : Except Error α
  took : Nat
  cluster : κ

structure Client (κ : Type) where
  /-- Whether a request can be made at all. -/
  accepts : Request → Bool
  /-- Answers a request made at a time of the clock. -/
  reply : (request : Request) → (clock : Nat) → κ → Reply κ request.Answer

namespace Client

def ask (client : Client κ) (request : Request) : Act κ σ request.Answer := fun s =>
  let reply := client.reply request s.clock s.cluster
  let later := { s with clock := s.clock + reply.took, cluster := reply.cluster }
  match reply.result with
  | .ok a => (.ok a, later)
  | .error e => (.error (.error e), later)

end Client
end BackupWatch.Cluster
