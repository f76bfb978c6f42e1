import TensorArena.Arena.Gaps
import TensorArena.Arena.Plan
import TensorArena.Arena.Planner
import TensorArena.Arena.Storage
import TensorArena.Catalog.Basic
import TensorArena.Catalog.Descriptor
import TensorArena.Catalog.Document
import TensorArena.Catalog.Standard
import TensorArena.Codec.Bytes
import TensorArena.Codec.Fingerprint
import TensorArena.CommandLine.Arguments
import TensorArena.CommandLine.Files
import TensorArena.CommandLine.Run
import TensorArena.Compile.Basic
import TensorArena.Compile.Report
import TensorArena.Compile.Settings
import TensorArena.Graph.Basic
import TensorArena.Graph.Builder
import TensorArena.Graph.Document
import TensorArena.Graph.Encoding
import TensorArena.Graph.Param
import TensorArena.Graph.Validation
import TensorArena.Json.Basic
import TensorArena.Json.Decoder
import TensorArena.Json.Reader
import TensorArena.Json.Writer
import TensorArena.Lifetime.Analysis
import TensorArena.Lifetime.Interval
import TensorArena.Main
import TensorArena.Numeric.Binary
import TensorArena.Numeric.Decimal
import TensorArena.Numeric.Evaluation
import TensorArena.Numeric.Number
import TensorArena.Program.Context
import TensorArena.Program.Execution
import TensorArena.Program.Instance
import TensorArena.Program.Session
import TensorArena.Program.Source
import TensorArena.Program.Step
import TensorArena.Proofs.Arena.Addresses
import TensorArena.Proofs.Arena.Alignment
import TensorArena.Proofs.Arena.Arrangement
import TensorArena.Proofs.Arena.Conflict
import TensorArena.Proofs.Arena.FirstFit
import TensorArena.Proofs.Arena.Gaps
import TensorArena.Proofs.Arena.Holdings
import TensorArena.Proofs.Arena.Layout
import TensorArena.Proofs.Arena.Ledger
import TensorArena.Proofs.Arena.Limit
import TensorArena.Proofs.Arena.Lowest
import TensorArena.Proofs.Arena.Moves
import TensorArena.Proofs.Arena.Order
import TensorArena.Proofs.Arena.Origin
import TensorArena.Proofs.Arena.Overflow
import TensorArena.Proofs.Arena.Ownership
import TensorArena.Proofs.Arena.Refusal
import TensorArena.Proofs.Arena.Release
import TensorArena.Proofs.Arena.Schedule
import TensorArena.Proofs.Arena.Sums
import TensorArena.Proofs.Arena.Tracking
import TensorArena.Proofs.Arena.Transfers
import TensorArena.Proofs.Arena.Turns
import TensorArena.Proofs.Arena.Walk
import TensorArena.Proofs.Codec.Delimited
import TensorArena.Proofs.Codec.Fingerprint
import TensorArena.Proofs.CommandLine.Layers
import TensorArena.Proofs.Compile.Barriers
import TensorArena.Proofs.Compile.Completeness
import TensorArena.Proofs.Compile.Constants
import TensorArena.Proofs.Compile.ModelName
import TensorArena.Proofs.Compile.Names
import TensorArena.Proofs.Compile.Rearrangement
import TensorArena.Proofs.Compile.Source
import TensorArena.Proofs.Graph.Boundary
import TensorArena.Proofs.Graph.Building
import TensorArena.Proofs.Graph.Document
import TensorArena.Proofs.Graph.Encoding
import TensorArena.Proofs.Graph.Param
import TensorArena.Proofs.Json.Decoding
import TensorArena.Proofs.Json.Text
import TensorArena.Proofs.Json.Token
import TensorArena.Proofs.Lifetime.Acceptance
import TensorArena.Proofs.Lifetime.Exact
import TensorArena.Proofs.Lifetime.Interval
import TensorArena.Proofs.Lifetime.Recorded
import TensorArena.Proofs.Lifetime.Truncation
import TensorArena.Proofs.Lifetime.Walk
import TensorArena.Proofs.Memory.Machine
import TensorArena.Proofs.Memory.Simulation
import TensorArena.Proofs.Names
import TensorArena.Proofs.Program.Admission
import TensorArena.Proofs.Program.Arrays
import TensorArena.Proofs.Program.Assembly
import TensorArena.Proofs.Program.Batches
import TensorArena.Proofs.Program.Checking
import TensorArena.Proofs.Program.Completion
import TensorArena.Proofs.Program.Configuration
import TensorArena.Proofs.Program.Counting
import TensorArena.Proofs.Program.Draining
import TensorArena.Proofs.Program.Emission
import TensorArena.Proofs.Program.Extents
import TensorArena.Proofs.Program.Failures
import TensorArena.Proofs.Program.Fewest
import TensorArena.Proofs.Program.Fragments
import TensorArena.Proofs.Program.History
import TensorArena.Proofs.Program.Keys
import TensorArena.Proofs.Program.Layout
import TensorArena.Proofs.Program.Partition
import TensorArena.Proofs.Program.Quoting
import TensorArena.Proofs.Program.Queueing
import TensorArena.Proofs.Program.Registering
import TensorArena.Proofs.Program.Registry
import TensorArena.Proofs.Program.Releases
import TensorArena.Proofs.Program.Rendering
import TensorArena.Proofs.Program.Requests
import TensorArena.Proofs.Program.Running
import TensorArena.Proofs.Program.Sequence
import TensorArena.Proofs.Program.Session
import TensorArena.Proofs.Program.Settling
import TensorArena.Proofs.Program.Sharing
import TensorArena.Proofs.Program.Statements
import TensorArena.Proofs.Results
import TensorArena.Proofs.Tensor.Size
import TensorArena.Proofs.Text.Escapes
import TensorArena.Proofs.Text.Indentation
import TensorArena.Proofs.Text.Lines
import TensorArena.Proofs.Text.Literals
import TensorArena.Proofs.Text.Symbols
import TensorArena.Tensor.Basic
import TensorArena.Tensor.Kind
import TensorArena.Text.Blank
import TensorArena.Text.Block
import TensorArena.Text.Hidden
import TensorArena.Text.Identifier
import TensorArena.Text.Literal
import TensorArena.Text.Order
import TensorArena.Text.Quoted
