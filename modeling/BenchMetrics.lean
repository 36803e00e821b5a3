import BenchMetrics.Text.Blank
import BenchMetrics.Text.Column
import BenchMetrics.Text.Quoted
import BenchMetrics.Json.Reader
import BenchMetrics.Json.Decode
import BenchMetrics.Json.Printer
import BenchMetrics.Stream.Reader
import BenchMetrics.Time.Unit
import BenchMetrics.Time.Stamp
import BenchMetrics.Request.Record
import BenchMetrics.Metric.Accumulator
import BenchMetrics.Metric.Holder
import BenchMetrics.Metric.Standard
import BenchMetrics.Metric.Registrar
import BenchMetrics.Metric.EvaluationOrder
import BenchMetrics.Statistics.Result
import BenchMetrics.Settings.Environment
import BenchMetrics.Run.Consumer
import BenchMetrics.Run.Delivery
import BenchMetrics.Time.Instant
import BenchMetrics.Run.Identity
import BenchMetrics.Exchange.Metric
import BenchMetrics.Run.Session
import BenchMetrics.Run.Pipeline
import BenchMetrics.Settings.File
import BenchMetrics.Main
import BenchMetrics.Proofs.Order.Resolution
import BenchMetrics.Proofs.Run.Course
import BenchMetrics.Proofs.Run.Accounting
import BenchMetrics.Proofs.Run.Rate
import BenchMetrics.Proofs.Run.Likeness
import BenchMetrics.Proofs.Run.Rearrangement
import BenchMetrics.Proofs.Run.Conclusion
import BenchMetrics.Proofs.Run.Policy
import BenchMetrics.Proofs.Run.Completion
import BenchMetrics.Proofs.Run.Locality
import BenchMetrics.Proofs.Run.Independence
import BenchMetrics.Proofs.Run.Alignment
import BenchMetrics.Proofs.Stream.RoundTrip
import BenchMetrics.Proofs.Run.Streaming
import BenchMetrics.Proofs.Run.Inertness
import BenchMetrics.Proofs.Run.Delivery
import BenchMetrics.Proofs.Exchange.RoundTrip
import BenchMetrics.Proofs.Run.Consistency
import BenchMetrics.Proofs.Number.Whole
import BenchMetrics.Proofs.Run.Outcome
import BenchMetrics.Proofs.Run.Span
import BenchMetrics.Proofs.Run.Propagation
import BenchMetrics.Proofs.Tally.Canon
import BenchMetrics.Proofs.Order.ReportedCycle
import BenchMetrics.Proofs.Catalog.Registration
import BenchMetrics.Proofs.Run.Pipeline
import BenchMetrics.Proofs.Command.Analysis
import BenchMetrics.Proofs.Request.Timing
import BenchMetrics.Proofs.Request.TokenSum
import BenchMetrics.Proofs.Run.Exactness
import BenchMetrics.Proofs.Run.Grading
import BenchMetrics.Proofs.Stream.Joining
import BenchMetrics.Proofs.Request.Agreement
import BenchMetrics.Proofs.Metric.Accumulation
import BenchMetrics.Proofs.Statistics.Realized
import BenchMetrics.Proofs.Number.WholePart
import BenchMetrics.Proofs.Statistics.Rank
import BenchMetrics.Proofs.Statistics.Figures
import BenchMetrics.Proofs.Stream.Padding
import BenchMetrics.Proofs.Request.Life
import BenchMetrics.Proofs.Request.StreamEnd
import BenchMetrics.Proofs.Request.Telescoping
import BenchMetrics.Proofs.Measure.FirstFault
import BenchMetrics.Proofs.Settings.Environment
import BenchMetrics.Proofs.Statistics.Exact
