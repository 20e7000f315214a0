import BackupWatch.Resource.Metadata

/-!
The jobs that move volume data to the backup storage: uploads of finished snapshots, and
file-system backups of volumes that cannot be snapshotted.
-/

namespace BackupWatch.Resource

open Json

structure DataUploadSpec where
  snapshotType : Option String
  sourceNamespace : Option String
  sourceClaim : Option String
  storageLocation : Option String
  deriving DecidableEq, Repr, Inhabited

def DataUploadSpec.read (value : Json) : Option DataUploadSpec := do
  let names := ["snapshotType", "sourceNamespace", "sourcePVC", "backupStorageLocation"]
  let fields ← readRecord names value
  return {
    snapshotType := ← fields.optional "snapshotType" readText
    sourceNamespace := ← fields.optional "sourceNamespace" readText
    sourceClaim := ← fields.optional "sourcePVC" readText
    storageLocation := ← fields.optional "backupStorageLocation" readText }

structure VolumeBackupSpec where
  node : Option String
  volume : Option String
  storageLocation : Option String
  deriving DecidableEq, Repr, Inhabited

def VolumeBackupSpec.read (value : Json) : Option VolumeBackupSpec := do
  let fields ← readRecord ["node", "volume", "backupStorageLocation"] value
  return {
    node := ← fields.optional "node" readText
    volume := ← fields.optional "volume" readText
    storageLocation := ← fields.optional "backupStorageLocation" readText }

structure JobStatus where
  phase : Option String
  message : Option String
  deriving DecidableEq, Repr, Inhabited

def JobStatus.read (value : Json) : Option JobStatus := do
  let fields ← readRecord ["phase", "message"] value
  return {
    phase := ← fields.optional "phase" readText
    message := ← fields.optional "message" readText }

abbrev DataUpload := Reported DataUploadSpec JobStatus

abbrev VolumeBackup := Reported VolumeBackupSpec JobStatus

def DataUpload.read (value : Json) : Option DataUpload :=
  Reported.read DataUploadSpec.read JobStatus.read value

def VolumeBackup.read (value : Json) : Option VolumeBackup :=
  Reported.read VolumeBackupSpec.read JobStatus.read value

end BackupWatch.Resource
