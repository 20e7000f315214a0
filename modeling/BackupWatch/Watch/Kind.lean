/-!
The four kinds of object whose completion gates the resume, where each is listed from, and the
phases that their progress is reduced to.
-/

namespace BackupWatch.Watch

inductive Kind
  | snapshotContent
  | snapshot
  | dataUpload
  | volumeBackup
  deriving DecidableEq, Repr, Inhabited

/-- Where a kind is listed from. -/
inductive Scope
  /-- The whole cluster, narrowed by the namespace that an object refers to. -/
  | cluster
  /-- Each of the namespaces that the backup includes. -/
  | includedNamespaces
  /-- The namespace of the backup object. -/
  | backupNamespace
  deriving DecidableEq, Repr, Inhabited

namespace Kind

def all : List Kind := [snapshotContent, snapshot, dataUpload, volumeBackup]

def text : Kind → String
  | snapshotContent => "VolumeSnapshotContent"
  | snapshot => "VolumeSnapshot"
  | dataUpload => "DataUpload"
  | volumeBackup => "PodVolumeBackup"

def scope : Kind → Scope
  | snapshotContent => .cluster
  | snapshot => .includedNamespaces
  | dataUpload => .backupNamespace
  | volumeBackup => .backupNamespace

end Kind

inductive Phase
  | new
  | inProgress
  | completed
  | failed
  deriving DecidableEq, Repr, Inhabited

namespace Phase

def text : Phase → String
  | new => "New"
  | inProgress => "InProgress"
  | completed => "Completed"
  | failed => "Failed"

/-- Cancelled jobs have failed; every phase in between, known or not, is in progress. -/
def ofJob (phase : Option String) : Phase :=
  match phase with
  | none => new
  | some "" => new
  | some "New" => new
  | some "Completed" => completed
  | some "Failed" => failed
  | some "Canceled" => failed
  | some _ => inProgress

def ofReady : Option Bool → Phase
  | none => new
  | some false => inProgress
  | some true => completed

end Phase

/-- One value for each kind. -/
structure PerKind (α : Type) where
  snapshotContent : α
  snapshot : α
  dataUpload : α
  volumeBackup : α
  deriving DecidableEq, Repr

namespace PerKind

def same (value : α) : PerKind α := ⟨value, value, value, value⟩

def get (values : PerKind α) : Kind → α
  | .snapshotContent => values.snapshotContent
  | .snapshot => values.snapshot
  | .dataUpload => values.dataUpload
  | .volumeBackup => values.volumeBackup

def set (values : PerKind α) (kind : Kind) (value : α) : PerKind α :=
  match kind with
  | .snapshotContent => { values with snapshotContent := value }
  | .snapshot => { values with snapshot := value }
  | .dataUpload => { values with dataUpload := value }
  | .volumeBackup => { values with volumeBackup := value }

@[simp] theorem get_same (value : α) (kind : Kind) : (same value).get kind = value := by
  cases kind <;> rfl

@[simp] theorem get_set_self (values : PerKind α) (kind : Kind) (value : α) :
    (values.set kind value).get kind = value := by
  cases kind <;> rfl

theorem get_set_of_ne (values : PerKind α) {kind other : Kind} (value : α) (h : other ≠ kind) :
    (values.set kind value).get other = values.get other := by
  cases kind <;> cases other <;> first | rfl | exact absurd rfl h

theorem get_set (values : PerKind α) (kind other : Kind) (value : α) :
    (values.set kind value).get other = if other = kind then value else values.get other := by
  split
  · next h => rw [h, get_set_self]
  · next h => exact get_set_of_ne values value h

end PerKind
end BackupWatch.Watch
