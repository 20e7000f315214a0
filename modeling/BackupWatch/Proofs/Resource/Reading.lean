import BackupWatch.Cluster.Api
import BackupWatch.Proofs.Resource.Alike

/-!
What is written of a hosted cluster, of a node pool or of a platform is read back as it was. What is
read of any resource depends neither on members that it has no field for nor on whether an optional
field is null or absent, and so does what the client makes of it.
-/

namespace BackupWatch

open Json

section Written

variable {key other : String} {write : α → Json} {read : Reader α} {rest : Members}

theorem find?_optionalMember_of_ne (value : Option α) (h : other ≠ key) :
    Members.find? (optionalMember key write value ++ rest) other = rest.find? other := by
  cases value with
  | none => rfl
  | some v =>
    change List.lookup other ((key, write v) :: rest) = List.lookup other rest
    rw [List.lookup_cons, beq_false_of_ne h]

/-- A member written only if there is a value is found if there is one. -/
theorem find?_optionalMember (value : Option α) (h : rest.find? key = none) :
    Members.find? (optionalMember key write value ++ rest) key = value.map write := by
  cases value with
  | none => exact h
  | some v =>
    change List.lookup key ((key, write v) :: rest) = _
    rw [List.lookup_cons, beq_self_eq_true]
    rfl

/-- An optional member that was written, or was left out for want of a value, is read back. -/
theorem optional_of_written {members : Members} {value : Option α}
    (hfind : members.find? key = value.map write) (hread : ∀ v, read (write v) = some v)
    (hnull : read .null = none) : members.optional key read = some value := by
  unfold Members.optional
  rw [hfind]
  cases value with
  | none => rfl
  | some v =>
    rw [Option.map_some]
    split
    · next h => cases h
    · next h => rw [← hread v, Option.some.inj h, hnull]
    · next value _ h =>
      rw [← Option.some.inj h, hread v]
      rfl

end Written

namespace Resource

theorem Platform.read_write (p : Platform) : read p.write = some p := congrArg some (ofName_text p)

theorem Platform.ofName_of_unknown {name : String} (h : ∀ p ∈ known, p.text ≠ name) :
    ofName name = other := by
  have hnone : known.find? (fun p => p.text == name) = Option.none :=
    List.find?_eq_none.mpr fun p hp => by simpa using h p hp
  rw [ofName, hnone]
  rfl

theorem PlatformSpec.read_write (s : PlatformSpec) : read s.write = some s := by
  obtain ⟨type⟩ := s
  exact congrArg (·.map PlatformSpec.mk) (Platform.read_write type)

theorem AvailabilityPolicy.read_write (p : AvailabilityPolicy) : read p.write = some p := by
  cases p <;> rfl

/-- A specification that is written is read back as the same one. -/
theorem HostedClusterSpec.read_write (s : HostedClusterSpec) : read s.write = some s := by
  obtain ⟨paused, platform, availability⟩ := s
  obtain ⟨fields, hfields⟩ : ∃ fields : Members, fields =
      optionalMember "pausedUntil" .string paused ++ (optionalMember "platform" PlatformSpec.write
        platform ++ (optionalMember "controllerAvailabilityPolicy" AvailabilityPolicy.write
          availability ++ [])) := ⟨_, rfl⟩
  have hwrite : HostedClusterSpec.write ⟨paused, platform, availability⟩ = .object fields := by
    rw [hfields, List.append_nil, ← List.append_assoc]
    rfl
  have hpaused : fields.find? "pausedUntil" = paused.map .string := by
    refine hfields ▸ find?_optionalMember _ ?_
    rw [find?_optionalMember_of_ne _ (by decide), find?_optionalMember_of_ne _ (by decide)]
    rfl
  have hplatform : fields.find? "platform" = platform.map PlatformSpec.write := by
    rw [hfields, find?_optionalMember_of_ne _ (by decide)]
    exact find?_optionalMember _ (find?_optionalMember_of_ne _ (by decide))
  have havailability : fields.find? "controllerAvailabilityPolicy" =
      availability.map AvailabilityPolicy.write := by
    rw [hfields, find?_optionalMember_of_ne _ (by decide),
      find?_optionalMember_of_ne _ (by decide)]
    exact find?_optionalMember _ rfl
  rw [hwrite, read, readRecord, Option.bind_eq_bind, Option.bind_some,
    optional_of_written hpaused (fun _ => rfl) rfl,
    optional_of_written hplatform PlatformSpec.read_write rfl,
    optional_of_written havailability AvailabilityPolicy.read_write rfl]
  rfl

theorem NodePoolSpec.read_write (s : NodePoolSpec) : read s.write = some s := by
  obtain ⟨cluster, paused⟩ := s
  cases paused <;> rfl

end Resource

section Views

open Cluster Resource Watch

def Watch.Object.record : Kind → Record
  | .snapshotContent => SnapshotContent.record
  | .snapshot => Snapshot.record
  | .dataUpload => DataUpload.record
  | .volumeBackup => VolumeBackup.record

def Cluster.ManagedKind.record : ManagedKind → Record
  | .hostedCluster => HostedCluster.record
  | .nodePool => NodePool.record

theorem Watch.Object.respects_read (kind : Kind) :
    Respects (Object.record kind).Alike (Object.read kind) := by
  intro a b h
  cases kind with
  | snapshotContent =>
    exact congrArg (·.map ofSnapshotContent) (SnapshotContent.respects_read a b h)
  | snapshot => exact congrArg (·.map ofSnapshot) (Snapshot.respects_read a b h)
  | dataUpload => exact congrArg (·.map ofDataUpload) (DataUpload.respects_read a b h)
  | volumeBackup => exact congrArg (·.map ofVolumeBackup) (VolumeBackup.respects_read a b h)

theorem Cluster.Api.decode_congr {alike : Likeness} {read : Reader α} {a b : Json}
    (hread : Respects alike read) (h : alike a b) : decode read a = decode read b := by
  rw [decode, decode, hread a b h]

theorem Cluster.Api.pauseField_congr {kind : ManagedKind} {a b : Json} (h : kind.record.Alike a b) :
    pauseField kind a = pauseField kind b := by
  cases kind with
  | hostedCluster => rw [pauseField, pauseField, decode_congr HostedCluster.respects_read h]
  | nodePool => rw [pauseField, pauseField, decode_congr NodePool.respects_read h]

theorem Cluster.Api.answerOf_controlPlane_congr (id : Identity) {a b : Json}
    (h : ControlPlane.record.Alike a b) :
    answerOf (.controlPlane id) (.ok a) = answerOf (.controlPlane id) (.ok b) :=
  congrArg (·.map some) (decode_congr ControlPlane.respects_read h)

end Views

namespace Resource

open Cluster Watch

/-- A hosted cluster, a node pool or a platform that is read can be written and read again; a
platform of an unknown name is read as `other` and stays it. Raw objects that differ only in what
there is no field for, or in null for an absent optional field, are read as the same, or neither is
read. -/
theorem reading_is_stable_and_blind :
    (∀ raw cluster, HostedCluster.read raw = some cluster →
      HostedClusterSpec.read cluster.spec.write = some cluster.spec) ∧
    (∀ raw pool, NodePool.read raw = some pool →
      NodePoolSpec.read pool.spec.write = some pool.spec) ∧
    (∀ raw spec, PlatformSpec.read raw = some spec →
      PlatformSpec.read spec.write = some spec) ∧
    (∀ raw fields value name, readRecord ["type"] raw = some fields →
      fields.find? "type" = some value → readWord value = some name →
      (∀ p ∈ Platform.known, p.text ≠ name) →
      PlatformSpec.read raw = some ⟨.other⟩ ∧
        PlatformSpec.read (PlatformSpec.write ⟨.other⟩) = some ⟨.other⟩) ∧
    Respects SnapshotContent.record.Alike SnapshotContent.read ∧
    Respects Snapshot.record.Alike Snapshot.read ∧
    Respects DataUpload.record.Alike DataUpload.read ∧
    Respects VolumeBackup.record.Alike VolumeBackup.read ∧
    Respects ControlPlane.record.Alike ControlPlane.read ∧
    Respects HostedCluster.record.Alike HostedCluster.read ∧
    Respects NodePool.record.Alike NodePool.read ∧
    (∀ kind a b, (Object.record kind).Alike a b → Object.read kind a = Object.read kind b) ∧
    (∀ (kind : ManagedKind) (a b : Json), kind.record.Alike a b →
      Api.pauseField kind a = Api.pauseField kind b) ∧
    ∀ id a b, ControlPlane.record.Alike a b →
      Api.answerOf (.controlPlane id) (.ok a) = Api.answerOf (.controlPlane id) (.ok b) := by
  refine ⟨fun _ cluster _ => HostedClusterSpec.read_write cluster.spec,
    fun _ pool _ => NodePoolSpec.read_write pool.spec, fun _ spec _ => PlatformSpec.read_write spec,
    ?_, SnapshotContent.respects_read, Snapshot.respects_read, DataUpload.respects_read,
    VolumeBackup.respects_read, ControlPlane.respects_read, HostedCluster.respects_read,
    NodePool.respects_read, Object.respects_read, fun _ _ _ => Api.pauseField_congr,
    fun id _ _ => Api.answerOf_controlPlane_congr id⟩
  intro raw fields value name hfields hvalue hname hunknown
  refine ⟨?_, PlatformSpec.read_write _⟩
  have htype : fields.defaulted "type" .none Platform.read = some .other := by
    rw [Members.defaulted, hvalue]
    change (readWord value).map Platform.ofName = _
    rw [hname, Option.map_some, Platform.ofName_of_unknown hunknown]
  rw [PlatformSpec.read, hfields, Option.bind_eq_bind, Option.bind_some, htype]
  rfl

def nutanix : Members := [("type", .string "Nutanix")]

def nutanixSpec : Members := [("platform", .object nutanix)]

def nutanixCluster : Members :=
  [("metadata", .object [("name", .string "prod")]), ("spec", .object nutanixSpec)]

def workerPool : Members :=
  [("metadata", .object [("name", .string "workers")]),
    ("spec", .object [("clusterName", .string "prod")])]

def pendingUpload : Members :=
  [("metadata", .object [("name", .string "upload")]), ("spec", .object [])]

def detailedPlatform : Members := nutanix.insert "nutanix" (.object [])

def detailedSpec : Members := nutanixSpec.insert "platform" (.object detailedPlatform)

def detailedCluster : Members := nutanixCluster.insert "spec" (.object detailedSpec)

theorem reading_is_stable_and_blind_nutanix :
    (∃ cluster, HostedCluster.read (.object nutanixCluster) = some cluster ∧
      HostedClusterSpec.read cluster.spec.write = some cluster.spec) ∧
    (∃ pool, NodePool.read (.object workerPool) = some pool ∧
      NodePoolSpec.read pool.spec.write = some pool.spec) ∧
    (∃ spec, PlatformSpec.read (.object nutanix) = some spec ∧
      PlatformSpec.read spec.write = some spec) ∧
    PlatformSpec.read (.object nutanix) = some ⟨.other⟩ ∧
    Object.read .dataUpload (.object pendingUpload) =
      Object.read .dataUpload (.object (pendingUpload.insert "status" .null)) ∧
    Api.pauseField .hostedCluster (.object nutanixCluster) =
      Api.pauseField .hostedCluster (.object detailedCluster) ∧
    Api.answerOf (.controlPlane ⟨"prod", none⟩) (.ok (.object nutanixCluster)) =
      Api.answerOf (.controlPlane ⟨"prod", none⟩) (.ok (.object detailedCluster)) := by
  obtain ⟨hcluster, hpool, hspec, hunknown, -, -, -, -, -, -, -, hwatched, hpause, hplane⟩ :=
    reading_is_stable_and_blind
  have hplatforms : PlatformSpec.record.Alike (.object nutanix) (.object detailedPlatform) :=
    Record.alike_insert _ (by simp [PlatformSpec.record, Field.strict])
      (by simp [PlatformSpec.record, Field.strict])
  have hspecs : HostedClusterSpec.record.Alike (.object nutanixSpec) (.object detailedSpec) :=
    Record.alike_insert_field _ (.optional "platform" PlatformSpec.record.Alike) (by decide)
      (by simp [HostedClusterSpec.record, Field.optional]) (.tail _ (.head _)) (.some hplatforms)
  have hclusters : HostedCluster.record.Alike (.object nutanixCluster)
      (.object detailedCluster) :=
    Record.alike_insert_field _ (.strict "spec" HostedClusterSpec.record.Alike) (by decide)
      (by simp [HostedCluster.record, Stored.record, Field.strict]) (.tail _ (.head _))
      (.some hspecs)
  have huploads : DataUpload.record.Alike (.object pendingUpload)
      (.object (pendingUpload.insert "status" .null)) :=
    Record.alike_insert_field _ (.optional "status" JobStatus.record.Alike) (by decide)
      (by simp [DataUpload.record, Reported.record, Field.strict, Field.optional])
      (.tail _ (.tail _ (.head _))) .none
  exact ⟨⟨_, rfl, hcluster (.object nutanixCluster) _ rfl⟩,
    ⟨_, rfl, hpool (.object workerPool) _ rfl⟩, ⟨_, rfl, hspec (.object nutanix) _ rfl⟩,
    (hunknown _ _ _ _ rfl rfl rfl (by decide)).1, hwatched .dataUpload _ _ huploads,
    hpause .hostedCluster _ _ hclusters, hplane _ _ _ hclusters⟩

end Resource
end BackupWatch
