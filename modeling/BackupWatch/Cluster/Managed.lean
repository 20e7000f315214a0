/-!
Managed objects: the hosted cluster and its node pools, whose reconciliation stops while their
pause field holds `true`.
-/

namespace BackupWatch.Cluster

inductive ManagedKind
  | hostedCluster
  | nodePool
  deriving DecidableEq, Repr, Inhabited

def ManagedKind.text : ManagedKind → String
  | hostedCluster => "HostedCluster"
  | nodePool => "NodePool"

structure Managed where
  kind : ManagedKind
  ns : String
  name : String
  deriving DecidableEq, Repr, Inhabited

namespace Managed

def text (o : Managed) : String := o.kind.text ++ " " ++ o.ns ++ "/" ++ o.name

end Managed

/-- The pause field as it was read, with the version that it was read at. -/
structure PauseField where
  value : Option String
  version : Option String
  deriving DecidableEq, Repr, Inhabited

/-- The value shown for a pause field. -/
def shownPause (value : Option String) : String := "pausedUntil=" ++ value.getD "<unset>"

end BackupWatch.Cluster
