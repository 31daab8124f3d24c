import Cadence.Batch
import Cadence.Benchmark.Collapse
import Cadence.Benchmark.Performance
import Cadence.Benchmark.Preparation
import Cadence.Benchmark.Process
import Cadence.Benchmark.Surroundings
import Cadence.ByteSize
import Cadence.Clock
import Cadence.CommandLine.Command
import Cadence.CommandLine.Number
import Cadence.CommandLine.Param
import Cadence.CommandLine.Refusal
import Cadence.CommandLine.Setting
import Cadence.CommandLine.Words
import Cadence.Config
import Cadence.Count
import Cadence.Decimal.Binary
import Cadence.Decimal.Fixed
import Cadence.Decimal.Shortest
import Cadence.Duration
import Cadence.Duration.Notation
import Cadence.Exchange.Endpoint
import Cadence.Exchange.Executor
import Cadence.Exchange.Reply
import Cadence.Failure
import Cadence.Fault
import Cadence.FileTree
import Cadence.Gateway.Arguments
import Cadence.Gateway.Handler
import Cadence.Gateway.History
import Cadence.Gateway.KeyedHash
import Cadence.Gateway.Route
import Cadence.Gateway.SocketAddress
import Cadence.Gateway.Store
import Cadence.Http.Client
import Cadence.Http.Header
import Cadence.Http.Message
import Cadence.Http.Multipart
import Cadence.Http.Multipart.Decoder
import Cadence.Http.Target
import Cadence.Identifiers
import Cadence.Identifiers.History
import Cadence.Interval
import Cadence.Json.Reader
import Cadence.Json.Value
import Cadence.Latency.Histogram
import Cadence.Lifecycle
import Cadence.Lifecycle.History
import Cadence.Log
import Cadence.Log.Filter
import Cadence.Log.Line
import Cadence.Main
import Cadence.Operation
import Cadence.Outcome
import Cadence.Pacing
import Cadence.Program
import Cadence.Proofs.Beats
import Cadence.Proofs.Benchmark.Acceptance
import Cadence.Proofs.Benchmark.Collapse
import Cadence.Proofs.Benchmark.Conclusion
import Cadence.Proofs.Benchmark.Identifiers
import Cadence.Proofs.Benchmark.Performance
import Cadence.Proofs.Benchmark.Preparation
import Cadence.Proofs.Benchmark.Process
import Cadence.Proofs.Benchmark.Requests
import Cadence.Proofs.Benchmark.Stream
import Cadence.Proofs.ByteSize
import Cadence.Proofs.CommandLine.Accepted
import Cadence.Proofs.CommandLine.Options
import Cadence.Proofs.Duration.Display
import Cadence.Proofs.Duration.Notation
import Cadence.Proofs.Exchange.Address
import Cadence.Proofs.Exchange.Endpoint
import Cadence.Proofs.Exchange.Judgement
import Cadence.Proofs.Exchange.Lookup
import Cadence.Proofs.Exchange.Reply
import Cadence.Proofs.Exchange.Sending
import Cadence.Proofs.FileTree
import Cadence.Proofs.FileTree.Frame
import Cadence.Proofs.Float.Arithmetic
import Cadence.Proofs.Float.Counts
import Cadence.Proofs.Float.Rounding
import Cadence.Proofs.Float.Value
import Cadence.Proofs.Gateway.Contents
import Cadence.Proofs.Gateway.Identifier
import Cadence.Proofs.Gateway.Replies
import Cadence.Proofs.Http.Multipart
import Cadence.Proofs.Identifiers
import Cadence.Proofs.Identifiers.Sink
import Cadence.Proofs.Json.Numeral
import Cadence.Proofs.Json.RoundTrip
import Cadence.Proofs.Latency.Histogram
import Cadence.Proofs.Latency.Levels
import Cadence.Proofs.Latency.Ranked
import Cadence.Proofs.Lifecycle
import Cadence.Proofs.Pacing
import Cadence.Proofs.Program.ExitCode
import Cadence.Proofs.Quantity
import Cadence.Proofs.Report.Figure
import Cadence.Proofs.Report.Line
import Cadence.Proofs.Run.Aggregation
import Cadence.Proofs.Run.Conservation
import Cadence.Proofs.Run.Counts
import Cadence.Proofs.Run.Execution
import Cadence.Proofs.Run.Faults
import Cadence.Proofs.Run.Gathering
import Cadence.Proofs.Run.Inversion
import Cadence.Proofs.Run.Ledger
import Cadence.Proofs.Run.Lifecycle
import Cadence.Proofs.Run.Log
import Cadence.Proofs.Run.Moves
import Cadence.Proofs.Run.Placement
import Cadence.Proofs.Run.Series
import Cadence.Proofs.Run.Standstill
import Cadence.Proofs.Run.Start
import Cadence.Proofs.Simulation.Advance
import Cadence.Proofs.Simulation.Closing
import Cadence.Proofs.Simulation.Course
import Cadence.Proofs.Simulation.Deliveries
import Cadence.Proofs.Simulation.Dispatch
import Cadence.Proofs.Simulation.Drain
import Cadence.Proofs.Simulation.Effort
import Cadence.Proofs.Simulation.Process
import Cadence.Proofs.Simulation.Punctual
import Cadence.Proofs.Simulation.Refinement
import Cadence.Proofs.Simulation.Reports
import Cadence.Proofs.Simulation.Results
import Cadence.Proofs.Simulation.Schedule
import Cadence.Proofs.Simulation.Sound
import Cadence.Proofs.Simulation.StopPoint
import Cadence.Proofs.Simulation.Termination
import Cadence.Proofs.Tally
import Cadence.Proofs.Tally.Aggregate
import Cadence.Proofs.Tally.Figures
import Cadence.Proofs.Tally.Order
import Cadence.Proofs.Tally.Percentile
import Cadence.Proofs.Text.Lines
import Cadence.Proofs.Text.Utf8
import Cadence.Proofs.Url.Form
import Cadence.Proofs.Url.Path
import Cadence.Proofs.Url.Segment
import Cadence.Proofs.Workload.Batch
import Cadence.Proofs.Workload.Contract
import Cadence.Proofs.Workload.Indices
import Cadence.Proofs.Workload.Shuffle
import Cadence.Proofs.Workload.Supply
import Cadence.Proofs.Workload.Tiling
import Cadence.Quantity
import Cadence.Report.Figure
import Cadence.Report.Header
import Cadence.Report.Line
import Cadence.Report.Progress
import Cadence.Report.Summary
import Cadence.Reporter
import Cadence.Run.Controller
import Cadence.Run.Event
import Cadence.Run.Loop
import Cadence.Run.Process
import Cadence.Run.Simulation
import Cadence.Run.System
import Cadence.Run.Task
import Cadence.Snapshot
import Cadence.SystemError
import Cadence.Tally
import Cadence.Tally.History
import Cadence.Text.Blank
import Cadence.Text.Hex
import Cadence.Text.Lines
import Cadence.Text.LowerCase
import Cadence.Text.Quoted
import Cadence.Text.Shapeless
import Cadence.Text.Utf8
import Cadence.Url.Form
import Cadence.Url.Host
import Cadence.Url.Host.Address
import Cadence.Url.Host.Domain
import Cadence.Url.Host.International
import Cadence.Url.Host.Punycode
import Cadence.Url.Parser
import Cadence.Url.Path
import Cadence.Url.Percent
import Cadence.Workload
import Cadence.Workload.Random
import Cadence.Workload.Shuffle
