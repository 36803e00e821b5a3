import BenchMetrics.Run.Engine
import BenchMetrics.Statistics.Result
/-! The outcome of a run: the statistics and raw values of its metrics, and what was left
out. -/
namespace BenchMetrics

/-- How the records ended. -/
inductive Ending where
  | completed
  | cancelled
  deriving DecidableEq, Repr

structure Summary where
  processed : Nat
  failed : Nat
  unusable : Nat
  /-- Rejections by tag, only where there are some. -/
  rejections : Dict Nat
  /-- In evaluation order. -/
  results : List MetricResult
  /-- By tag, in the units of the metrics. -/
  values : Dict Value
  failures : FailureReport
  /-- The run ended before all records were seen. -/
  wasPartial : Bool

namespace Summary

def get? (s : Summary) (tag : String) : Option MetricResult := s.results.find? (·.tag == tag)

def value? (s : Summary) (tag : String) : Option Value := s.values.get? tag

def realized (s : Summary) (tag : String) : List Sample :=
  ((s.value? tag).map Value.realized).getD []

def rejectionsOf (s : Summary) (tag : String) : Nat := (s.rejections.get? tag).getD 0

/-- The sum of all rejections. -/
def rejectionSum (s : Summary) : Nat := s.rejections.values.foldl (· + ·) 0

/-- The sum of all rejections in 64 bits. -/
def totalRejections (s : Summary) : Except Panic UInt64 := wordOf s.rejectionSum

end Summary

namespace Engine

/-- The raw values of metrics by tag. -/
def valuesOf (metrics : List Accumulator) : Dict Value :=
  .ofList (metrics.map fun a => (a.tag.text, a.value))

/-- Runs the summary metrics over what has been seen and reports. -/
def finish (e : Engine) (ending : Ending) : Except MetricError Summary :=
  let p := summarizeFrom [] e.metrics
  match p.stopped with
  | some err => .error err
  | none => do
    let cancelled := ending = .cancelled
    let failures := if cancelled then e.failures.markCancelled else e.failures
    let results ← p.metrics.mapM fun a =>
      MetricResult.ofValue a.descriptor a.value e.settings.displayUnit
    .ok {
      processed := e.processed
      failed := e.failed
      unusable := e.unusable
      rejections := p.rejected.foldl tally e.rejections
      results := results
      values := valuesOf p.metrics
      failures := failures.report
      wasPartial := cancelled }

end Engine
end BenchMetrics
