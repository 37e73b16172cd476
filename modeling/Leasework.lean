import Leasework.Bench.Plan
import Leasework.Bench.Run
import Leasework.Bench.Tasks
import Leasework.Broker.Address
import Leasework.Broker.Client
import Leasework.Broker.Command
import Leasework.Broker.Receiver
import Leasework.Broker.Rehearsal
import Leasework.Broker.Value
import Leasework.CommandLine.Connection
import Leasework.CommandLine.Options
import Leasework.Crew.Options
import Leasework.Crew.Permits
import Leasework.Crew.Roster
import Leasework.Crew.Run
import Leasework.Document
import Leasework.Handler.Choice
import Leasework.Handler.Program
import Leasework.Host.Deployment
import Leasework.Host.Settings
import Leasework.Host.StatusPage
import Leasework.Host.Variables
import Leasework.Json.Quoted
import Leasework.Json.Text
import Leasework.Lease.Keeper
import Leasework.Lease.Period
import Leasework.Main
import Leasework.Plant
import Leasework.Polling.Client
import Leasework.Polling.Rehearsal
import Leasework.Polling.Service
import Leasework.Proofs.Bench.Accounts
import Leasework.Proofs.Bench.Completion
import Leasework.Proofs.Bench.Ledger
import Leasework.Proofs.Bench.Loopback
import Leasework.Proofs.Bench.Steps
import Leasework.Proofs.Broker.Batches
import Leasework.Proofs.Broker.Connections
import Leasework.Proofs.Broker.Course
import Leasework.Proofs.Broker.Reads
import Leasework.Proofs.Broker.Token
import Leasework.Proofs.Crew.Drain
import Leasework.Proofs.Crew.Governed
import Leasework.Proofs.Crew.Lifecycle
import Leasework.Proofs.Crew.Manned
import Leasework.Proofs.Crew.Order
import Leasework.Proofs.Crew.Pauses
import Leasework.Proofs.Crew.Sequence
import Leasework.Proofs.Crew.Sole
import Leasework.Proofs.Crew.Steps
import Leasework.Proofs.Handler.Answers
import Leasework.Proofs.Handler.Reports
import Leasework.Proofs.Host.Acceptance
import Leasework.Proofs.Host.RoundTrip
import Leasework.Proofs.Host.Serviceable
import Leasework.Proofs.Json.Literals
import Leasework.Proofs.Json.RoundTrip
import Leasework.Proofs.Lease.Endurance
import Leasework.Proofs.Lease.Exclusion
import Leasework.Proofs.Lease.Expiry
import Leasework.Proofs.Lease.Guard
import Leasework.Proofs.Lease.Overflow
import Leasework.Proofs.Lease.Period
import Leasework.Proofs.Lease.Renewals
import Leasework.Proofs.Lease.Silence
import Leasework.Proofs.Lease.Tenure
import Leasework.Proofs.Lease.Timetable
import Leasework.Proofs.Plant.Acts
import Leasework.Proofs.Plant.Keepers
import Leasework.Proofs.Polling.Batches
import Leasework.Proofs.Polling.Rounds
import Leasework.Proofs.Queue.Calls
import Leasework.Proofs.Queue.Cancellation
import Leasework.Proofs.Queue.Conservation
import Leasework.Proofs.Queue.Counts
import Leasework.Proofs.Queue.Effects
import Leasework.Proofs.Queue.Fencing
import Leasework.Proofs.Queue.FirstCome
import Leasework.Proofs.Queue.History
import Leasework.Proofs.Queue.Laziness
import Leasework.Proofs.Queue.Line
import Leasework.Proofs.Queue.Orderly
import Leasework.Proofs.Queue.Promise
import Leasework.Proofs.Queue.Reconciliation
import Leasework.Proofs.Queue.Schedule
import Leasework.Proofs.Queue.Stock
import Leasework.Proofs.Queue.Waits
import Leasework.Proofs.Queue.Wakeups
import Leasework.Proofs.Text.Decoding
import Leasework.Proofs.Text.Encoding
import Leasework.Proofs.Work.Audit
import Leasework.Proofs.Work.Boards
import Leasework.Proofs.Work.Delivery
import Leasework.Proofs.Work.Duplication
import Leasework.Proofs.Work.Iterations
import Leasework.Proofs.Work.Marks
import Leasework.Proofs.Work.Record
import Leasework.Proofs.Work.Refusals
import Leasework.Proofs.Work.Rounds
import Leasework.Proofs.Work.Steps
import Leasework.Proofs.Work.Tallies
import Leasework.Proofs.World.Agents
import Leasework.Proofs.World.Deliveries
import Leasework.Proofs.World.Parties
import Leasework.Proofs.World.Rounds
import Leasework.Proofs.World.Runs
import Leasework.Proofs.World.Wakeups
import Leasework.Queue.Call
import Leasework.Queue.Failure
import Leasework.Queue.Kind
import Leasework.Queue.Notice
import Leasework.Queue.Patience
import Leasework.Queue.Retry
import Leasework.Queue.Settings
import Leasework.Queue.Single
import Leasework.Queue.Store
import Leasework.Rehearsal.Program
import Leasework.Rehearsal.Run
import Leasework.Rehearsal.Script
import Leasework.Rehearsal.Stage
import Leasework.Shell.Command
import Leasework.Shell.Format
import Leasework.Shell.Launch
import Leasework.Shell.Run
import Leasework.Shell.State
import Leasework.Shell.Sum
import Leasework.Shell.Tool
import Leasework.Shell.Word
import Leasework.Span
import Leasework.Text.Blank
import Leasework.Text.Casing
import Leasework.Text.Lowercase
import Leasework.Text.Numeral
import Leasework.Text.Utf8
import Leasework.Toml.Lexeme
import Leasework.Toml.Scalar
import Leasework.Toml.Text
import Leasework.Toml.Tree
import Leasework.Work.Board
import Leasework.Work.Consumer
import Leasework.Work.Failure
import Leasework.Work.Job
import Leasework.World
