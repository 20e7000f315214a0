import BackupWatch.Cluster.Client
import BackupWatch.Retry

/-!
Writing a pause field: read it, leave it if it holds the value, else write it at the version
that was read. A conflict starts the attempt over, with a new read.
-/

namespace BackupWatch.Pause

open Cluster

variable {κ σ : Type}

/-- One attempt; tells whether it wrote. -/
def attempt (client : Client κ) (object : Managed) (value : String) : Act κ σ Bool := do
  let observed : PauseField ← client.ask (.readPause object)
  if observed.value = some value then return false
  let _ ← client.ask (.writePause object observed value)
  return true

def operation (object : Managed) (value : String) : String :=
  "set pausedUntil=" ++ value ++ " on " ++ object.text

/-- Sets the pause field unless it holds the value; tells whether a write happened. -/
def apply (client : Client κ) (policy : Retry.Policy) (object : Managed) (value : String) :
    Act κ σ Bool :=
  Retry.run policy (operation object value) (attempt client object value)

end BackupWatch.Pause
