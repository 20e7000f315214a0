import BackupWatch.Job.Context

/-!
Chains: the kinds that volume data passes through on its way to durable storage, in order.
-/

namespace BackupWatch.Job

open Watch

inductive Chain
  /-- Snapshot, then upload. -/
  | standard
  /-- The snapshots are durable themselves. -/
  | snapshotOnly
  | fileSystem
  deriving DecidableEq, Repr, Inhabited

namespace Chain

def text : Chain → String
  | standard => "Standard"
  | snapshotOnly => "SnapshotOnly"
  | fileSystem => "FileSystem"

def stages : Chain → List Kind
  | standard => [.snapshotContent, .snapshot, .dataUpload]
  | snapshotOnly => [.snapshotContent, .snapshot]
  | fileSystem => [.volumeBackup]

/-- File-system backup comes before the platform. -/
def forJob (ctx : Context) : Chain :=
  if ctx.fileSystem then fileSystem
  else if ctx.platform = .azure then snapshotOnly
  else standard

end Chain
end BackupWatch.Job
