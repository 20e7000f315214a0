import BackupWatch.Resource.DataJob
import BackupWatch.Resource.Snapshot
import BackupWatch.Watch.Kind
import BackupWatch.Watch.Label

/-!
Watched objects: what the tracker keeps of an object of any of the four kinds. An object belongs
to a backup by its label, or by the stem of its name if it has no label.
-/

namespace BackupWatch.Watch

open Json Resource

/-- A name, and a namespace unless the object is cluster-wide. -/
structure Identity where
  name : String
  ns : Option String
  deriving DecidableEq, Repr, Inhabited

def Identity.text (id : Identity) : String :=
  match id.ns with
  | some ns => ns ++ "/" ++ id.name
  | none => id.name

structure Object where
  kind : Kind
  identity : Identity
  labels : TextMap
  /-- The namespace of the object that this one refers to. -/
  referenceNamespace : Option String
  phase : Phase
  message : Option String
  deriving DecidableEq, Repr, Inhabited

namespace Object

def belongsTo (o : Object) (backup : String) : Bool :=
  match o.labels.find? backupLabel with
  | some value => value == labelValue backup
  | none => (backup.toList ++ ['-']).isPrefixOf o.identity.name.toList

/-- An error outweighs readiness. -/
def snapshotProgress (status : Option SnapshotStatus) : Phase × Option String :=
  match status with
  | none => (.new, none)
  | some s =>
    match s.error with
    | some e => (.failed, some (e.message.getD "snapshot controller reported an error"))
    | none => (.ofReady s.ready, none)

def jobProgress (status : Option JobStatus) : Phase × Option String :=
  (.ofJob (status.bind JobStatus.phase), status.bind JobStatus.message)

def make (kind : Kind) (metadata : Metadata) (ns reference : Option String)
    (progress : Phase × Option String) : Object where
  kind
  identity := ⟨metadata.shownName, ns⟩
  labels := metadata.labels.getD []
  referenceNamespace := reference
  phase := progress.1
  message := progress.2

/-- Contents are cluster-wide, so a namespace in their metadata does not count. -/
def ofSnapshotContent (c : SnapshotContent) : Object :=
  make .snapshotContent c.metadata none c.spec.snapshot.ns (snapshotProgress c.status)

def ofSnapshot (s : Snapshot) : Object :=
  make .snapshot s.metadata s.metadata.ns none (snapshotProgress s.status)

def ofDataUpload (u : DataUpload) : Object :=
  make .dataUpload u.metadata u.metadata.ns u.spec.sourceNamespace (jobProgress u.status)

def ofVolumeBackup (b : VolumeBackup) : Object :=
  make .volumeBackup b.metadata b.metadata.ns none (jobProgress b.status)

/-- Reads a raw object as one of a kind. -/
def read (kind : Kind) (value : Json) : Option Object :=
  match kind with
  | .snapshotContent => (SnapshotContent.read value).map ofSnapshotContent
  | .snapshot => (Snapshot.read value).map ofSnapshot
  | .dataUpload => (DataUpload.read value).map ofDataUpload
  | .volumeBackup => (VolumeBackup.read value).map ofVolumeBackup

end Object
end BackupWatch.Watch
