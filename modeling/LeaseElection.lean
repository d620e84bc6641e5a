import LeaseElection.Span.Basic
import LeaseElection.Span.Text
import LeaseElection.Instant
import LeaseElection.Alarms
import LeaseElection.Binary64.Basic
import LeaseElection.Binary64.Rounding
import LeaseElection.Binary64.Shortest
import LeaseElection.Binary64.Text
import LeaseElection.Text.Blank
import LeaseElection.Text.Printable
import LeaseElection.Text.Quoted
import LeaseElection.Text.JsonString
import LeaseElection.Random.Draw
import LeaseElection.Random.ChaCha
import LeaseElection.Toml.Lexical
import LeaseElection.Toml.Strings
import LeaseElection.Toml.Numbers
import LeaseElection.Toml.Moments
import LeaseElection.Toml.Value
import LeaseElection.Toml.Document
import LeaseElection.Toml.Writer
import LeaseElection.Config.Basic
import LeaseElection.Config.Text
import LeaseElection.Policy
import LeaseElection.Identity
import LeaseElection.Journal
import LeaseElection.Lock.Basic
import LeaseElection.Lock.Double
import LeaseElection.Lock.Tracing
import LeaseElection.Lock.Service
import LeaseElection.Lease.Basic
import LeaseElection.Lease.Journal
import LeaseElection.Lease.Table
import LeaseElection.Task.Record
import LeaseElection.Task.Crew
import LeaseElection.Episode
import LeaseElection.Controller.Basic
import LeaseElection.Controller.Journal
import LeaseElection.Controller.Build
import LeaseElection.Cluster.Basic
import LeaseElection.Cluster.Command
import LeaseElection.Proofs.Binary64.Rounding
import LeaseElection.Proofs.Policy
import LeaseElection.Proofs.Policy.Jitter
import LeaseElection.Proofs.Text.Numbered
import LeaseElection.Proofs.Identity
import LeaseElection.Proofs.Alarms
import LeaseElection.Proofs.Task.Crew
import LeaseElection.Proofs.Task.Shift
import LeaseElection.Proofs.Lease.Ownership
import LeaseElection.Proofs.Lease.History
import LeaseElection.Proofs.Lease.Fencing
import LeaseElection.Proofs.Controller.Turn
import LeaseElection.Proofs.Controller.Patience
import LeaseElection.Proofs.Controller.Path
import LeaseElection.Proofs.Controller.Losses
import LeaseElection.Proofs.Controller.Causes
import LeaseElection.Proofs.Cluster.Frame
import LeaseElection.Proofs.Cluster.Waits
import LeaseElection.Proofs.Cluster.Runs
import LeaseElection.Proofs.Cluster.Schedule
import LeaseElection.Proofs.Cluster.Commands
import LeaseElection.Proofs.Cluster.Journal
import LeaseElection.Proofs.Cluster.Tokens
import LeaseElection.Proofs.Cluster.Tenure
import LeaseElection.Proofs.Cluster.Exclusion
import LeaseElection.Proofs.Cluster.Shutdown
import LeaseElection.Proofs.Cluster.Succession
import LeaseElection.Proofs.Cluster.Protection
import LeaseElection.Proofs.Cluster.Attention
import LeaseElection.Proofs.Cluster.Retention
import LeaseElection.Proofs.Cluster.Latency
import LeaseElection.Proofs.Lease.Ticks
import LeaseElection.Proofs.Lock.Rehearsal
import LeaseElection.Proofs.Binary64.Shortest
import LeaseElection.Proofs.Config.Text
import LeaseElection.Proofs.Binary64.Whole
import LeaseElection.Proofs.Policy.Margins
import LeaseElection.Proofs.Cluster.Lives
import LeaseElection.Proofs.Cluster.Attempts
import LeaseElection.Proofs.Cluster.Renewals
import LeaseElection.Proofs.Cluster.Rehearsals
import LeaseElection.Proofs.Lock.Counting
import LeaseElection.Proofs.Cluster.Failures
import LeaseElection.Proofs.Cluster.Overruns
import LeaseElection.Proofs.Cluster.Causes
import LeaseElection.Proofs.Cluster.Threads
