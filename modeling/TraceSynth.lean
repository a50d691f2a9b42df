import TraceSynth.Text.Bytes
import TraceSynth.Text.Sort
import TraceSynth.Text.RangeTable
import TraceSynth.Text.Printable
import TraceSynth.Text.Letter
import TraceSynth.Text.Width
import TraceSynth.Decimal.Binary64
import TraceSynth.Decimal.Shortest
import TraceSynth.Decimal.Format
import TraceSynth.Decimal.Read
import TraceSynth.Text.Quoted
import TraceSynth.Value.Basic
import TraceSynth.Value.Convert
import TraceSynth.Json.Basic
import TraceSynth.Heap.Native
import TraceSynth.Heap.Basic
import TraceSynth.Heap.Describe
import TraceSynth.Heap.Compare
import TraceSynth.Yaml.Token
import TraceSynth.Yaml.Lexer
import TraceSynth.Yaml.Scalar
import TraceSynth.Yaml.Stream
import TraceSynth.Yaml.Resolve
import TraceSynth.Yaml.Node
import TraceSynth.Yaml.Parse
import TraceSynth.Input.Basic
import TraceSynth.Input.Parse
import TraceSynth.Program.Expr
import TraceSynth.Program.Stmt
import TraceSynth.Program.Print
import TraceSynth.Program.Tree
import TraceSynth.Program.Token
import TraceSynth.Program.Parse
import TraceSynth.Program.Combine
import TraceSynth.Mutation.Requirement
import TraceSynth.Trace.Basic
import TraceSynth.Run.Fault
import TraceSynth.Run.Recorder
import TraceSynth.Run.Call
import TraceSynth.Run.Target
import TraceSynth.Run.Interp
import TraceSynth.Run.Record
import TraceSynth.Inference.Proposal
import TraceSynth.Inference.Skeleton
import TraceSynth.Run.Failure
import TraceSynth.Run.Batch
import TraceSynth.Metric.Distance
import TraceSynth.Metric.Evaluate
import TraceSynth.Seed.Replay
import TraceSynth.Generate.Prestate
import TraceSynth.Generate.Inputs
import TraceSynth.Generate.Selection
import TraceSynth.Random.Table
import TraceSynth.Random.Source
import TraceSynth.Mutation.Generator
import TraceSynth.Mutation.Strategy
import TraceSynth.Search.Config
import TraceSynth.Log.Entry
import TraceSynth.Search.Engine
import TraceSynth.Time.Duration
import TraceSynth.Time.Clock
import TraceSynth.Log.Pretty
import TraceSynth.Text.Grapheme
import TraceSynth.Report.Table
import TraceSynth.Report.Sink
import TraceSynth.Files.Path
import TraceSynth.Files.Pattern
import TraceSynth.Files.Tree
import TraceSynth.Time.Strftime
import TraceSynth.Yaml.Emit
import TraceSynth.Report.Basic
import TraceSynth.Report.Html
import TraceSynth.Report.Save
import TraceSynth.Log.Structured
import TraceSynth.Log.Logger
import TraceSynth.Search.Monitor
import TraceSynth.Cli.Flag
import TraceSynth.Cli.Command
import TraceSynth.Cli.Usage
import TraceSynth.Settings.Value
import TraceSynth.Json.Read
import TraceSynth.Settings.Toml
import TraceSynth.Settings.Yaml
import TraceSynth.Settings.Layers
import TraceSynth.Settings.Decode
import TraceSynth.Settings.File
import TraceSynth.Tool.Commands
import TraceSynth.Tool.Session
import TraceSynth.Tool.Actions
import TraceSynth.Tool.Run
import TraceSynth.Main
import TraceSynth.Proofs.Host.Aliases
import TraceSynth.Proofs.Run.WellAliased
import TraceSynth.Proofs.Program.Layout
import TraceSynth.Proofs.Program.RoundTrip
import TraceSynth.Proofs.Program.ReadBack
import TraceSynth.Proofs.Heap.KeyTable
import TraceSynth.Proofs.Float.Rounding
import TraceSynth.Proofs.Float.Magnitude
import TraceSynth.Proofs.Metric.ZeroDistance
import TraceSynth.Proofs.Host.Traversal
import TraceSynth.Proofs.Run.WellFormed
import TraceSynth.Proofs.Float.Order
import TraceSynth.Proofs.Search.Steps
import TraceSynth.Proofs.Run.Batch
import TraceSynth.Proofs.Search.Selection
import TraceSynth.Proofs.Program.Splice
import TraceSynth.Proofs.Decimal.Layout
import TraceSynth.Proofs.Search.Contract
import TraceSynth.Proofs.Search.Shorten
import TraceSynth.Proofs.Host.Basis
import TraceSynth.Proofs.Run.Ledger
import TraceSynth.Proofs.Run.Exhaustion
import TraceSynth.Proofs.Run.Budget
import TraceSynth.Proofs.Run.Accounting
import TraceSynth.Proofs.Text.Unquote
import TraceSynth.Proofs.Decimal.Round
import TraceSynth.Proofs.Decimal.Shortest
import TraceSynth.Proofs.Random.Draws
import TraceSynth.Proofs.Mutation.Scope
import TraceSynth.Proofs.Mutation.Edit
import TraceSynth.Proofs.Mutation.Shape
import TraceSynth.Proofs.Run.References
import TraceSynth.Proofs.Mutation.Visibility
import TraceSynth.Proofs.Search.Annealing
import TraceSynth.Proofs.Inference.Pattern
import TraceSynth.Proofs.Inference.Rounds
import TraceSynth.Proofs.Inference.Candidates
import TraceSynth.Proofs.Heap.Bisimilarity
import TraceSynth.Proofs.Inference.Ranking
import TraceSynth.Proofs.Heap.Addressing
import TraceSynth.Proofs.Program.Totality
import TraceSynth.Proofs.Decimal.Literal
import TraceSynth.Proofs.Program.Render
import TraceSynth.Proofs.Generate.Freshness
import TraceSynth.Proofs.Generate.Categories
import TraceSynth.Proofs.Generate.Sampling
import TraceSynth.Proofs.Random.Script
import TraceSynth.Proofs.Mutation.Exactness
import TraceSynth.Proofs.Decimal.StringNumber
import TraceSynth.Proofs.Float.Whole
import TraceSynth.Proofs.Run.EcmaArray
import TraceSynth.Proofs.Run.ArrayMethods
import TraceSynth.Proofs.Yaml.Anchors
import TraceSynth.Proofs.Input.Termination
