import BackupWatch.Resource.Metadata

/-!
Volume snapshots and the cluster-wide contents that they are bound to. Both report through one
kind of status.
-/

namespace BackupWatch.Resource

open Json

/-- The snapshot that a content is bound to. -/
structure SnapshotReference where
  name : Option String
  ns : Option String
  deriving DecidableEq, Repr, Inhabited

def SnapshotReference.read (value : Json) : Option SnapshotReference := do
  let fields ← readRecord ["name", "namespace"] value
  return {
    name := ← fields.optional "name" readText
    ns := ← fields.optional "namespace" readText }

structure SnapshotContentSpec where
  driver : Option String
  snapshot : SnapshotReference
  deriving DecidableEq, Repr, Inhabited

def SnapshotContentSpec.read (value : Json) : Option SnapshotContentSpec := do
  let fields ← readRecord ["driver", "volumeSnapshotRef"] value
  return {
    driver := ← fields.optional "driver" readText
    snapshot := ← fields.defaulted "volumeSnapshotRef" default SnapshotReference.read }

structure SnapshotSource where
  claimName : Option String
  deriving DecidableEq, Repr, Inhabited

def SnapshotSource.read (value : Json) : Option SnapshotSource := do
  let fields ← readRecord ["persistentVolumeClaimName"] value
  return { claimName := ← fields.optional "persistentVolumeClaimName" readText }

structure SnapshotSpec where
  className : Option String
  source : SnapshotSource
  deriving DecidableEq, Repr, Inhabited

def SnapshotSpec.read (value : Json) : Option SnapshotSpec := do
  let fields ← readRecord ["volumeSnapshotClassName", "source"] value
  return {
    className := ← fields.optional "volumeSnapshotClassName" readText
    source := ← fields.defaulted "source" default SnapshotSource.read }

structure SnapshotError where
  message : Option String
  deriving DecidableEq, Repr, Inhabited

def SnapshotError.read (value : Json) : Option SnapshotError := do
  let fields ← readRecord ["message"] value
  return { message := ← fields.optional "message" readText }

/-- Readiness is unknown until the snapshot controller has looked at the object. -/
structure SnapshotStatus where
  ready : Option Bool
  error : Option SnapshotError
  deriving DecidableEq, Repr, Inhabited

def SnapshotStatus.read (value : Json) : Option SnapshotStatus := do
  let fields ← readRecord ["readyToUse", "error"] value
  return {
    ready := ← fields.optional "readyToUse" readBool
    error := ← fields.optional "error" SnapshotError.read }

abbrev SnapshotContent := Reported SnapshotContentSpec SnapshotStatus

abbrev Snapshot := Reported SnapshotSpec SnapshotStatus

def SnapshotContent.read (value : Json) : Option SnapshotContent :=
  Reported.read SnapshotContentSpec.read SnapshotStatus.read value

def Snapshot.read (value : Json) : Option Snapshot :=
  Reported.read SnapshotSpec.read SnapshotStatus.read value

end BackupWatch.Resource
