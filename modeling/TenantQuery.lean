import TenantQuery.Aggregator.Basic
import TenantQuery.Calendar.Component
import TenantQuery.Calendar.Granularity
import TenantQuery.Calendar.Instant
import TenantQuery.Calendar.Interval
import TenantQuery.Calendar.Relative
import TenantQuery.Calendar.Segment
import TenantQuery.Calendar.Timestamp
import TenantQuery.Calendar.Zoned
import TenantQuery.CommandLine.Basic
import TenantQuery.CommandLine.Conversions
import TenantQuery.CommandLine.Documents
import TenantQuery.CommandLine.Flag
import TenantQuery.CommandLine.Report
import TenantQuery.CommandLine.Scenarios
import TenantQuery.Compiler.Basic
import TenantQuery.Compiler.Config
import TenantQuery.Compiler.Scope
import TenantQuery.Compiler.Settings
import TenantQuery.Compiler.Stage
import TenantQuery.Digest.Sha256
import TenantQuery.Dimension
import TenantQuery.Document.Basic
import TenantQuery.Document.Constraint
import TenantQuery.Document.Path
import TenantQuery.Error
import TenantQuery.Expansion.Convenience
import TenantQuery.Expansion.Experiment
import TenantQuery.Expansion.Funnel
import TenantQuery.Expansion.Options
import TenantQuery.Expansion.Retention
import TenantQuery.Extraction
import TenantQuery.FileSystem
import TenantQuery.Filter.Basic
import TenantQuery.Filter.Combine
import TenantQuery.Filter.Predicate
import TenantQuery.Ingestion.Reindex
import TenantQuery.Ingestion.Schema
import TenantQuery.Ingestion.Supervisor
import TenantQuery.Ingestion.Task
import TenantQuery.Json.Basic
import TenantQuery.Json.Canonical
import TenantQuery.Json.Indented
import TenantQuery.Json.Lookup
import TenantQuery.Json.Raw
import TenantQuery.Json.Reader
import TenantQuery.Json.Record
import TenantQuery.Json.Tagged
import TenantQuery.Json.Writer
import TenantQuery.Main
import TenantQuery.Number.Decimal
import TenantQuery.Number.Double
import TenantQuery.Number.Layout
import TenantQuery.Number.Shortest
import TenantQuery.Number.Word
import TenantQuery.PostAggregator.Basic
import TenantQuery.PostAggregator.Evaluation
import TenantQuery.PostAggregator.Statistics
import TenantQuery.Query.Basic
import TenantQuery.Query.Context
import TenantQuery.Result.Basic
import TenantQuery.Result.Item
import TenantQuery.Scenario.Assertion
import TenantQuery.Scenario.Basic
import TenantQuery.Scenario.Glob
import TenantQuery.Scenario.Run
import TenantQuery.Scenario.Suite
import TenantQuery.Text.Base64
import TenantQuery.Text.Blank
import TenantQuery.Text.Composition
import TenantQuery.Text.Distance
import TenantQuery.Text.Hex
import TenantQuery.Text.Normal
import TenantQuery.Text.Printable
import TenantQuery.Text.Quoted
import TenantQuery.Text.Table
import TenantQuery.Text.Units
import TenantQuery.Text.Utf8
import TenantQuery.Uuid
import TenantQuery.Validation
import TenantQuery.Yaml.Block
import TenantQuery.Yaml.Cursor
import TenantQuery.Yaml.Inline
import TenantQuery.Yaml.Node
import TenantQuery.Yaml.Reader
import TenantQuery.Yaml.Record
import TenantQuery.Yaml.Scalar
import TenantQuery.Yaml.Source
import TenantQuery.Yaml.Tag
import TenantQuery.Yaml.Token
import TenantQuery.Yaml.Value
import TenantQuery.Proofs.Aggregator.Codec
import TenantQuery.Proofs.Calendar.Date
import TenantQuery.Proofs.Calendar.Interval
import TenantQuery.Proofs.Calendar.Month
import TenantQuery.Proofs.Calendar.Segment
import TenantQuery.Proofs.Calendar.Timestamp
import TenantQuery.Proofs.Calendar.Unit
import TenantQuery.Proofs.Compiler.Clock
import TenantQuery.Proofs.Compiler.Fixpoint
import TenantQuery.Proofs.Compiler.Isolation
import TenantQuery.Proofs.Compiler.Phases
import TenantQuery.Proofs.Dimension.Codec
import TenantQuery.Proofs.Expansion.Experiment
import TenantQuery.Proofs.Expansion.Fits
import TenantQuery.Proofs.Expansion.Funnel
import TenantQuery.Proofs.Expansion.Retention
import TenantQuery.Proofs.Expansion.Shape
import TenantQuery.Proofs.Expansion.Sketch
import TenantQuery.Proofs.Filter.Codec
import TenantQuery.Proofs.Filter.Meaning
import TenantQuery.Proofs.Filter.Normal
import TenantQuery.Proofs.Filter.Windows
import TenantQuery.Proofs.Json.Entries
import TenantQuery.Proofs.Json.Invariant
import TenantQuery.Proofs.Json.Node
import TenantQuery.Proofs.Json.Normal
import TenantQuery.Proofs.Json.Number
import TenantQuery.Proofs.Json.Record
import TenantQuery.Proofs.Json.Text
import TenantQuery.Proofs.Number.Digits
import TenantQuery.Proofs.Number.Layout
import TenantQuery.Proofs.Number.Rounding
import TenantQuery.Proofs.Outcome
import TenantQuery.Proofs.PostAggregator.Codec
import TenantQuery.Proofs.PostAggregator.Evaluation
import TenantQuery.Proofs.Query.Codec
import TenantQuery.Proofs.Query.Fits
import TenantQuery.Proofs.Text
import TenantQuery.Proofs.Uuid
import TenantQuery.Proofs.Compiler.Progress
import TenantQuery.Proofs.Compiler.Idempotence
import TenantQuery.Proofs.Compiler.Normalized
import TenantQuery.Proofs.Json.Canonical
import TenantQuery.Proofs.Json.Places
import TenantQuery.Proofs.Json.Twin
import TenantQuery.Proofs.Query.Twin
import TenantQuery.Proofs.Expansion.Settled
import TenantQuery.Proofs.Query.Equality
import TenantQuery.Proofs.Compiler.Congruence
import TenantQuery.Proofs.Aggregator.Verbatim
import TenantQuery.Proofs.Json.Fixed
import TenantQuery.Proofs.PostAggregator.Verbatim
import TenantQuery.Proofs.Query.Nodes
import TenantQuery.Proofs.Calendar.Relative
import TenantQuery.Proofs.Query.Document
import TenantQuery.Proofs.Calendar.Zoned
import TenantQuery.Proofs.Result.Reply
import TenantQuery.Proofs.Ingestion.Schema
import TenantQuery.Proofs.Ingestion.Source
import TenantQuery.Proofs.Ingestion.Task
import TenantQuery.Proofs.Ingestion.Supervisor
import TenantQuery.Proofs.Json.Compact
import TenantQuery.Proofs.Validation
import TenantQuery.Proofs.PostAggregator.Scoping
import TenantQuery.Proofs.Compiler.Warnings
import TenantQuery.Proofs.Compiler.Emission
import TenantQuery.Proofs.Compiler.Refusal
import TenantQuery.Proofs.Filter.Evaluation
import TenantQuery.Proofs.Expansion.Rows
import TenantQuery.Proofs.Expansion.Histogram
import TenantQuery.Proofs.Occurrence
import TenantQuery.Proofs.Expansion.Convenience
import TenantQuery.Proofs.Validation.Faultless
import TenantQuery.Proofs.Calendar.Cover
import TenantQuery.Proofs.Calendar.Unaligned
import TenantQuery.Proofs.Calendar.Tiling
import TenantQuery.Proofs.Calendar.Shift
import TenantQuery.Proofs.Calendar.FullForm
import TenantQuery.Proofs.Calendar.Elapsed
import TenantQuery.Proofs.Calendar.Reach
import TenantQuery.Proofs.Json.Fault
import TenantQuery.Proofs.PostAggregator.Assignment
import TenantQuery.Proofs.Query.Pinpoint
import TenantQuery.Proofs.Filter.Joining
import TenantQuery.Proofs.Result.Partition
import TenantQuery.Proofs.Scenario.OutputNames
import TenantQuery.Proofs.Scenario.Rerun
import TenantQuery.Proofs.Json.Escaping
