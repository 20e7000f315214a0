import BackupWatch.Proofs.Json.Alike
import BackupWatch.Resource.DataJob
import BackupWatch.Resource.Hosted
import BackupWatch.Resource.Snapshot

/-!
The fields of the resources, and how the values of each are compared. Every resource is read as the
same from raw objects that agree on these fields.
-/

namespace BackupWatch.Resource

open Json

namespace Metadata

def owner : Record where
  fields := [.optional "apiVersion" BareAlike, .optional "blockOwnerDeletion" BareAlike,
    .optional "controller" BareAlike, .optional "kind" BareAlike, .optional "name" BareAlike,
    .optional "uid" BareAlike]
  brief := false

def manager : Record where
  fields := [.optional "apiVersion" BareAlike, .optional "fieldsType" BareAlike,
    .optional "manager" BareAlike, .optional "operation" BareAlike,
    .optional "subresource" BareAlike, .optional "time" BareAlike]
  brief := false

def record : Record where
  fields := [.optional "name" BareAlike, .optional "generateName" BareAlike,
    .optional "namespace" BareAlike, .optional "resourceVersion" BareAlike,
    .optional "labels" EntriesAlike, .optional "annotations" EntriesAlike,
    .optional "creationTimestamp" BareAlike, .optional "deletionGracePeriodSeconds" BareAlike,
    .optional "deletionTimestamp" BareAlike, .optional "finalizers" (ItemsAlike BareAlike),
    .optional "generation" BareAlike, .optional "managedFields" (ItemsAlike manager.Alike),
    .optional "ownerReferences" (ItemsAlike owner.Alike), .optional "selfLink" BareAlike,
    .optional "uid" BareAlike]
  brief := false

theorem respects_readStamp : Respects BareAlike readStamp := respects_of_objects fun _ => rfl

theorem respects_checkOwner : Respects owner.Alike checkOwner :=
  respects_members fun a b h => by
    rw [h.optional "apiVersion" respects_text (by simp [owner]),
      h.optional "blockOwnerDeletion" respects_bool (by simp [owner]),
      h.optional "controller" respects_bool (by simp [owner]),
      h.optional "kind" respects_text (by simp [owner]),
      h.optional "name" respects_text (by simp [owner]),
      h.optional "uid" respects_text (by simp [owner])]

theorem respects_checkManager : Respects manager.Alike checkManager :=
  respects_members fun a b h => by
    rw [h.optional "apiVersion" respects_text (by simp [manager]),
      h.optional "fieldsType" respects_text (by simp [manager]),
      h.optional "manager" respects_text (by simp [manager]),
      h.optional "operation" respects_text (by simp [manager]),
      h.optional "subresource" respects_text (by simp [manager]),
      h.optional "time" respects_readStamp (by simp [manager])]

/-- The fields of the metadata that nothing uses are checked alike too. -/
theorem checkOthers_congr {a b : Members} (h : record.Agree a b) :
    checkOthers a = checkOthers b := by
  unfold checkOthers
  rw [h.optional "creationTimestamp" respects_readStamp (by simp [record]),
    h.optional "deletionGracePeriodSeconds" respects_integer (by simp [record]),
    h.optional "deletionTimestamp" respects_readStamp (by simp [record]),
    h.optional "finalizers" (respects_array respects_text) (by simp [record]),
    h.optional "generation" respects_integer (by simp [record]),
    h.optional "managedFields" (respects_array respects_checkManager) (by simp [record]),
    h.optional "ownerReferences" (respects_array respects_checkOwner) (by simp [record]),
    h.optional "selfLink" respects_text (by simp [record]),
    h.optional "uid" respects_text (by simp [record])]

theorem respects_read : Respects record.Alike read :=
  respects_members fun a b h => by
    rw [checkOthers_congr h, h.optional "name" respects_text (by simp [record]),
      h.optional "generateName" respects_text (by simp [record]),
      h.optional "namespace" respects_text (by simp [record]),
      h.optional "resourceVersion" respects_text (by simp [record]),
      h.optional "labels" respects_textMap (by simp [record]),
      h.optional "annotations" respects_textMap (by simp [record])]

end Metadata

section Whole

variable {Spec Status : Type} {alike alike' : Likeness} {readSpec : Reader Spec}
  {readStatus : Reader Status}

def Stored.record (spec : Likeness) : Record where
  fields := [.strict "metadata" Metadata.record.Alike, .strict "spec" spec]
  brief := false

def Reported.record (spec status : Likeness) : Record where
  fields := [.strict "metadata" Metadata.record.Alike, .strict "spec" spec,
    .optional "status" status]
  brief := false

/-- A stored resource is read from its metadata and its specification only. -/
theorem Stored.ofFields_congr {r : Record} {a b : Members} (h : r.Agree a b)
    (hmetadata : .strict "metadata" Metadata.record.Alike ∈ r.fields)
    (hspec : .strict "spec" alike ∈ r.fields) (hread : Respects alike readSpec) :
    Stored.ofFields readSpec a = Stored.ofFields readSpec b := by
  unfold Stored.ofFields
  rw [h.required "metadata" Metadata.respects_read hmetadata, h.required "spec" hread hspec]

/-- A stored resource respects what its specification respects. -/
theorem Stored.respects_read (hspec : Respects alike readSpec) :
    Respects (Stored.record alike).Alike (Stored.read readSpec) :=
  respects_fullRecord rfl (by decide) rfl fun _ _ h =>
    Stored.ofFields_congr h (by simp [record]) (by simp [record]) hspec

/-- A resource with a status respects what its specification and its status respect. -/
theorem Reported.respects_read (hspec : Respects alike readSpec)
    (hstatus : Respects alike' readStatus) :
    Respects (Reported.record alike alike').Alike (Reported.read readSpec readStatus) :=
  respects_fullRecord rfl (by decide) rfl fun _ _ h => by
    rw [Stored.ofFields_congr h (by simp [record]) (by simp [record]) hspec,
      h.optional "status" hstatus (by simp [record])]

end Whole

section Snapshots

def SnapshotReference.record : Record where
  fields := [.optional "name" BareAlike, .optional "namespace" BareAlike]
  brief := true

def SnapshotContentSpec.record : Record where
  fields := [.optional "driver" BareAlike,
    .strict "volumeSnapshotRef" SnapshotReference.record.Alike]
  brief := true

def SnapshotSource.record : Record where
  fields := [.optional "persistentVolumeClaimName" BareAlike]
  brief := true

def SnapshotSpec.record : Record where
  fields := [.optional "volumeSnapshotClassName" BareAlike,
    .strict "source" SnapshotSource.record.Alike]
  brief := true

def SnapshotError.record : Record where
  fields := [.optional "message" BareAlike]
  brief := true

def SnapshotStatus.record : Record where
  fields := [.optional "readyToUse" BareAlike, .optional "error" SnapshotError.record.Alike]
  brief := true

def SnapshotContent.record : Record :=
  Reported.record SnapshotContentSpec.record.Alike SnapshotStatus.record.Alike

def Snapshot.record : Record :=
  Reported.record SnapshotSpec.record.Alike SnapshotStatus.record.Alike

theorem SnapshotReference.respects_read : Respects record.Alike read :=
  respects_record rfl (by decide) fun a b h => by
    rw [h.optional "name" respects_text (by simp [record]),
      h.optional "namespace" respects_text (by simp [record])]

theorem SnapshotContentSpec.respects_read : Respects record.Alike read :=
  respects_record rfl (by decide) fun a b h => by
    rw [h.optional "driver" respects_text (by simp [record]),
      h.defaulted "volumeSnapshotRef" default SnapshotReference.respects_read (by simp [record])]

theorem SnapshotSource.respects_read : Respects record.Alike read :=
  respects_record rfl (by decide) fun a b h => by
    rw [h.optional "persistentVolumeClaimName" respects_text (by simp [record])]

theorem SnapshotSpec.respects_read : Respects record.Alike read :=
  respects_record rfl (by decide) fun a b h => by
    rw [h.optional "volumeSnapshotClassName" respects_text (by simp [record]),
      h.defaulted "source" default SnapshotSource.respects_read (by simp [record])]

theorem SnapshotError.respects_read : Respects record.Alike read :=
  respects_record rfl (by decide) fun a b h => by
    rw [h.optional "message" respects_text (by simp [record])]

theorem SnapshotStatus.respects_read : Respects record.Alike read :=
  respects_record rfl (by decide) fun a b h => by
    rw [h.optional "readyToUse" respects_bool (by simp [record]),
      h.optional "error" SnapshotError.respects_read (by simp [record])]

theorem SnapshotContent.respects_read : Respects record.Alike read :=
  Reported.respects_read SnapshotContentSpec.respects_read SnapshotStatus.respects_read

theorem Snapshot.respects_read : Respects record.Alike read :=
  Reported.respects_read SnapshotSpec.respects_read SnapshotStatus.respects_read

end Snapshots

section Jobs

def DataUploadSpec.record : Record where
  fields := [.optional "snapshotType" BareAlike, .optional "sourceNamespace" BareAlike,
    .optional "sourcePVC" BareAlike, .optional "backupStorageLocation" BareAlike]
  brief := true

def VolumeBackupSpec.record : Record where
  fields := [.optional "node" BareAlike, .optional "volume" BareAlike,
    .optional "backupStorageLocation" BareAlike]
  brief := true

def JobStatus.record : Record where
  fields := [.optional "phase" BareAlike, .optional "message" BareAlike]
  brief := true

def DataUpload.record : Record :=
  Reported.record DataUploadSpec.record.Alike JobStatus.record.Alike

def VolumeBackup.record : Record :=
  Reported.record VolumeBackupSpec.record.Alike JobStatus.record.Alike

theorem DataUploadSpec.respects_read : Respects record.Alike read :=
  respects_record rfl (by decide) fun a b h => by
    rw [h.optional "snapshotType" respects_text (by simp [record]),
      h.optional "sourceNamespace" respects_text (by simp [record]),
      h.optional "sourcePVC" respects_text (by simp [record]),
      h.optional "backupStorageLocation" respects_text (by simp [record])]

theorem VolumeBackupSpec.respects_read : Respects record.Alike read :=
  respects_record rfl (by decide) fun a b h => by
    rw [h.optional "node" respects_text (by simp [record]),
      h.optional "volume" respects_text (by simp [record]),
      h.optional "backupStorageLocation" respects_text (by simp [record])]

theorem JobStatus.respects_read : Respects record.Alike read :=
  respects_record rfl (by decide) fun a b h => by
    rw [h.optional "phase" respects_text (by simp [record]),
      h.optional "message" respects_text (by simp [record])]

theorem DataUpload.respects_read : Respects record.Alike read :=
  Reported.respects_read DataUploadSpec.respects_read JobStatus.respects_read

theorem VolumeBackup.respects_read : Respects record.Alike read :=
  Reported.respects_read VolumeBackupSpec.respects_read JobStatus.respects_read

end Jobs

section Hosted

def PlatformSpec.record : Record where
  fields := [.strict "type" EntriesAlike]
  brief := true

def HostedClusterSpec.record : Record where
  fields := [.optional "pausedUntil" BareAlike, .optional "platform" PlatformSpec.record.Alike,
    .optional "controllerAvailabilityPolicy" EntriesAlike]
  brief := true

def NodePoolSpec.record : Record where
  fields := [.strict "clusterName" BareAlike, .optional "pausedUntil" BareAlike]
  brief := true

def HostedCluster.record : Record := Stored.record HostedClusterSpec.record.Alike

def ControlPlane.record : Record := Stored.record HostedClusterSpec.record.Alike

def NodePool.record : Record := Stored.record NodePoolSpec.record.Alike

theorem Platform.respects_read : Respects EntriesAlike read := fun a b h => by
  unfold read
  rw [respects_word a b h]

theorem AvailabilityPolicy.respects_read : Respects EntriesAlike read := fun a b h => by
  unfold read
  rw [respects_word a b h]

theorem PlatformSpec.respects_read : Respects record.Alike read :=
  respects_record rfl (by decide) fun a b h => by
    rw [h.defaulted "type" .none Platform.respects_read (by simp [record])]

theorem HostedClusterSpec.respects_read : Respects record.Alike read :=
  respects_record rfl (by decide) fun a b h => by
    rw [h.optional "pausedUntil" respects_text (by simp [record]),
      h.optional "platform" PlatformSpec.respects_read (by simp [record]),
      h.optional "controllerAvailabilityPolicy" AvailabilityPolicy.respects_read
        (by simp [record])]

theorem NodePoolSpec.respects_read : Respects record.Alike read :=
  respects_record rfl (by decide) fun a b h => by
    rw [h.defaulted "clusterName" "" respects_text (by simp [record]),
      h.optional "pausedUntil" respects_text (by simp [record])]

theorem HostedCluster.respects_read : Respects record.Alike read :=
  Stored.respects_read HostedClusterSpec.respects_read

theorem ControlPlane.respects_read : Respects record.Alike read :=
  Stored.respects_read HostedClusterSpec.respects_read

theorem NodePool.respects_read : Respects record.Alike read :=
  Stored.respects_read NodePoolSpec.respects_read

end Hosted

end BackupWatch.Resource
