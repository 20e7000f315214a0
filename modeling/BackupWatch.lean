import BackupWatch.Cluster.Api
import BackupWatch.Cluster.Call
import BackupWatch.Cluster.Client
import BackupWatch.Cluster.Managed
import BackupWatch.Cluster.Route
import BackupWatch.Command.Arguments
import BackupWatch.Command.Flag
import BackupWatch.Command.Job
import BackupWatch.Command.Run
import BackupWatch.Config.Basic
import BackupWatch.Config.Document
import BackupWatch.Config.Folder
import BackupWatch.Decimal.Binary
import BackupWatch.Decimal.Reading
import BackupWatch.Decimal.Shortest
import BackupWatch.Digest.Sha256
import BackupWatch.Error
import BackupWatch.Fault
import BackupWatch.Job.Chain
import BackupWatch.Job.Check
import BackupWatch.Job.Context
import BackupWatch.Job.Namespaces
import BackupWatch.Job.Progress
import BackupWatch.Job.Tally
import BackupWatch.Json.Basic
import BackupWatch.Json.Reading
import BackupWatch.Main
import BackupWatch.Numeral.Unsigned
import BackupWatch.Pause.Apply
import BackupWatch.Pause.Orchestrator
import BackupWatch.Poll
import BackupWatch.Proofs.Act
import BackupWatch.Proofs.Adds
import BackupWatch.Proofs.Chronicle
import BackupWatch.Proofs.Config.Accepted
import BackupWatch.Proofs.Config.Grammar
import BackupWatch.Proofs.Config.Layers
import BackupWatch.Proofs.Config.Manifest
import BackupWatch.Proofs.Decimal.Magnitude
import BackupWatch.Proofs.Decimal.Rounding
import BackupWatch.Proofs.Ends
import BackupWatch.Proofs.Grants
import BackupWatch.Proofs.Job.Cached
import BackupWatch.Proofs.Job.Check
import BackupWatch.Proofs.Job.Classification
import BackupWatch.Proofs.Job.Downstream
import BackupWatch.Proofs.Job.Failure
import BackupWatch.Proofs.Job.Finish
import BackupWatch.Proofs.Job.FirstPass
import BackupWatch.Proofs.Job.InTime
import BackupWatch.Proofs.Job.Interrupted
import BackupWatch.Proofs.Job.Leftovers
import BackupWatch.Proofs.Job.Listing
import BackupWatch.Proofs.Job.Order
import BackupWatch.Proofs.Job.Own
import BackupWatch.Proofs.Job.Progress
import BackupWatch.Proofs.Job.Reasons
import BackupWatch.Proofs.Job.Regular
import BackupWatch.Proofs.Job.Settled
import BackupWatch.Proofs.Job.Standing
import BackupWatch.Proofs.Job.Tally
import BackupWatch.Proofs.Job.Threshold
import BackupWatch.Proofs.Job.Trial
import BackupWatch.Proofs.Job.Visits
import BackupWatch.Proofs.Job.Waiting
import BackupWatch.Proofs.Json.Alike
import BackupWatch.Proofs.Limits
import BackupWatch.Proofs.Numeral.Written
import BackupWatch.Proofs.Pause.Agreement
import BackupWatch.Proofs.Pause.Contention
import BackupWatch.Proofs.Pause.Effort
import BackupWatch.Proofs.Pause.Partway
import BackupWatch.Proofs.Pause.Reach
import BackupWatch.Proofs.Pause.Recovery
import BackupWatch.Proofs.Pause.Requests
import BackupWatch.Proofs.Pause.Resumption
import BackupWatch.Proofs.Pause.Sequence
import BackupWatch.Proofs.Pause.States
import BackupWatch.Proofs.Pause.Twins
import BackupWatch.Proofs.Poll.Schedule
import BackupWatch.Proofs.Raise
import BackupWatch.Proofs.Resource.Alike
import BackupWatch.Proofs.Resource.Reading
import BackupWatch.Proofs.Retry.Attempts
import BackupWatch.Proofs.Retry.Delay
import BackupWatch.Proofs.Retry.Standard
import BackupWatch.Proofs.Script
import BackupWatch.Proofs.Server.Counted
import BackupWatch.Proofs.Server.Fields
import BackupWatch.Proofs.Server.Lists
import BackupWatch.Proofs.Server.Patched
import BackupWatch.Proofs.Server.Pools
import BackupWatch.Proofs.Server.Shared
import BackupWatch.Proofs.Server.Store
import BackupWatch.Proofs.Server.Watched
import BackupWatch.Proofs.Text.Bytes
import BackupWatch.Proofs.Time.Seconds
import BackupWatch.Proofs.Timeless
import BackupWatch.Proofs.Timeline
import BackupWatch.Proofs.Tracker.Cached
import BackupWatch.Proofs.Tracker.Calls
import BackupWatch.Proofs.Tracker.Concluding
import BackupWatch.Proofs.Tracker.Discovery
import BackupWatch.Proofs.Tracker.Failure
import BackupWatch.Proofs.Tracker.Final
import BackupWatch.Proofs.Tracker.FirstCheck
import BackupWatch.Proofs.Tracker.History
import BackupWatch.Proofs.Tracker.Leftovers
import BackupWatch.Proofs.Tracker.Limits
import BackupWatch.Proofs.Tracker.Obliging
import BackupWatch.Proofs.Tracker.Order
import BackupWatch.Proofs.Tracker.Others
import BackupWatch.Proofs.Tracker.Overdue
import BackupWatch.Proofs.Tracker.Pausing
import BackupWatch.Proofs.Tracker.Regular
import BackupWatch.Proofs.Tracker.Resume
import BackupWatch.Proofs.Tracker.Run
import BackupWatch.Proofs.Twins
import BackupWatch.Proofs.Watch.Label
import BackupWatch.Resource.DataJob
import BackupWatch.Resource.Hosted
import BackupWatch.Resource.Metadata
import BackupWatch.Resource.Platform
import BackupWatch.Resource.Snapshot
import BackupWatch.Retry
import BackupWatch.Server.Basic
import BackupWatch.Server.Store
import BackupWatch.Session
import BackupWatch.Text.Blank
import BackupWatch.Text.Cased
import BackupWatch.Text.Lowercase
import BackupWatch.Text.Quoted
import BackupWatch.Text.Unprintable
import BackupWatch.Time.Duration
import BackupWatch.Time.Seconds
import BackupWatch.Time.Stamp
import BackupWatch.Tracker
import BackupWatch.Watch.Kind
import BackupWatch.Watch.Label
import BackupWatch.Watch.Leftovers
import BackupWatch.Watch.Object
import BackupWatch.Yaml.Document
import BackupWatch.Yaml.Node
import BackupWatch.Yaml.Scalar
import BackupWatch.Yaml.Token
import BackupWatch.Yaml.Token.Lexer
import BackupWatch.Yaml.Token.Text
import BackupWatch.Yaml.Value
