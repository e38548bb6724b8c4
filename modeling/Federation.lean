import Federation.Agent
import Federation.Backoff
import Federation.Config.Derived
import Federation.Config.File
import Federation.Config.Settings
import Federation.Config.Validation
import Federation.Connection.Basic
import Federation.Connection.Dispatch
import Federation.Connection.Opening
import Federation.Connection.PushTask
import Federation.Connection.RemotePath
import Federation.Connection.Replies
import Federation.Connection.Requests
import Federation.Connection.Steps
import Federation.Connection.Tasks
import Federation.Event
import Federation.Failure.Basic
import Federation.Failure.Store
import Federation.Failure.Validation
import Federation.Forwarding
import Federation.Frame
import Federation.Garden
import Federation.Http.Jobs
import Federation.Http.Message
import Federation.Job
import Federation.JobCalls
import Federation.Jobs
import Federation.Json.Basic
import Federation.Json.Coded
import Federation.Json.Decoder
import Federation.Json.Fault
import Federation.Json.Printer
import Federation.Json.Reader
import Federation.Lifecycle
import Federation.Listener
import Federation.Main
import Federation.Message
import Federation.Node
import Federation.Number.Double
import Federation.Number.Rounding
import Federation.Number.Scaling
import Federation.Number.Shortest
import Federation.Number.Significant
import Federation.Operation
import Federation.Outcome
import Federation.Proofs.Actions
import Federation.Proofs.Agent.Replies
import Federation.Proofs.Agent.Starts
import Federation.Proofs.Connection.Awaited
import Federation.Proofs.Connection.PushTask
import Federation.Proofs.Connection.Requests
import Federation.Proofs.Connection.Subscriptions
import Federation.Proofs.Connection.Tasks
import Federation.Proofs.Failures
import Federation.Proofs.Fates
import Federation.Proofs.Http.Elsewhere
import Federation.Proofs.Http.Requests
import Federation.Proofs.Http.Verbatim
import Federation.Proofs.Jobs.Calls
import Federation.Proofs.Jobs.Ledger
import Federation.Proofs.Jobs.Patches
import Federation.Proofs.Json.Jobs
import Federation.Proofs.Json.Members
import Federation.Proofs.Json.Numerals
import Federation.Proofs.Json.Reading
import Federation.Proofs.Json.Reals
import Federation.Proofs.Json.Records
import Federation.Proofs.Json.Rereading
import Federation.Proofs.Json.RoundTrip
import Federation.Proofs.Json.Strings
import Federation.Proofs.Json.Submissions
import Federation.Proofs.Json.Values
import Federation.Proofs.Json.Yields
import Federation.Proofs.Number.Scaling
import Federation.Proofs.Number.Shortest
import Federation.Proofs.Number.Whole
import Federation.Proofs.Occasions
import Federation.Proofs.Routing
import Federation.Proofs.Store.Gardens
import Federation.Proofs.Store.Jobs
import Federation.Proofs.Store.Legible
import Federation.Proofs.Store.Listing
import Federation.Proofs.Store.Reading
import Federation.Proofs.Store.Shadows
import Federation.Proofs.Store.Users
import Federation.Proofs.Supervision.Delays
import Federation.Proofs.Supervision.Runs
import Federation.Proofs.Text.Cuts
import Federation.Proofs.Time.Order
import Federation.Proofs.Time.Reading
import Federation.Proofs.Time.Rfc3339
import Federation.Proofs.Traffic.Chains
import Federation.Proofs.Traffic.Reception
import Federation.Proofs.Traffic.Standstill
import Federation.Proofs.Traffic.Turns
import Federation.Proofs.Users.Again
import Federation.Proofs.Users.Contents
import Federation.Proofs.Users.Drift
import Federation.Proofs.Users.Echo
import Federation.Proofs.Users.Flood
import Federation.Proofs.Users.Import
import Federation.Proofs.Users.Nesting
import Federation.Proofs.Users.Provenance
import Federation.Proofs.Users.Push
import Federation.Proofs.Users.Reports
import Federation.Proofs.Users.Rows
import Federation.Proofs.Users.Sequence
import Federation.Proofs.Users.Traffic
import Federation.Proofs.Wire.EmptyAddress
import Federation.Proofs.Wire.Events
import Federation.Proofs.Wire.Exchange
import Federation.Proofs.Wire.Frames
import Federation.Proofs.Wire.Headers
import Federation.Proofs.Wire.LineEnds
import Federation.Proofs.Wire.Normal
import Federation.Proofs.Wire.Operations
import Federation.Proofs.Wire.Outcomes
import Federation.Proofs.Wire.Replies
import Federation.Registry
import Federation.Role
import Federation.Routing
import Federation.Store.Basic
import Federation.Store.Columns
import Federation.Store.Gardens
import Federation.Store.Jobs
import Federation.Store.Shadows
import Federation.Store.Users
import Federation.Supervisor
import Federation.Text.Blank
import Federation.Text.Decimal
import Federation.Text.Invisible
import Federation.Text.Quoted
import Federation.Text.Split
import Federation.Text.Upper
import Federation.Text.Utf8
import Federation.Time.Duration
import Federation.Time.Instant
import Federation.Time.Rfc3339
import Federation.Time.Stored
import Federation.Toml.Basic
import Federation.Toml.Reader
import Federation.Toml.Writer
import Federation.Traffic.Exchange
import Federation.Traffic.Listeners
import Federation.Traffic.Reception
import Federation.Traffic.UserSync
import Federation.Url
import Federation.User
import Federation.Users
import Federation.Validation
