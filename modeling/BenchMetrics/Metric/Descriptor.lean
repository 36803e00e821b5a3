import BenchMetrics.Metric.Error
import BenchMetrics.Time.Unit
/-! The fixed description of a metric: what it is called, how it is measured, when it is
evaluated and which metrics it reads. -/
namespace BenchMetrics

inductive MetricUnit where
  | time (unit : TimeUnit)
  /-- A count or rate with its label. -/
  | plain (label : String)
  deriving DecidableEq, Repr

namespace MetricUnit

def timeUnit? : MetricUnit → Option TimeUnit
  | .time unit => some unit
  | .plain _ => none

def text : MetricUnit → String
  | .time unit => unit.short
  | .plain label => label

end MetricUnit

/-- The pass that evaluates a metric. -/
inductive Stage where
  /-- One value per record, from the record alone. -/
  | record
  /-- One value after all records, from other metrics. -/
  | summary
  /-- One value per record, from the record and other metrics. -/
  | both
  deriving DecidableEq, Repr

namespace Stage

def takesRecords : Stage → Bool
  | .record | .both => true
  | .summary => false

def label : Stage → String
  | .record => "RECORD"
  | .summary => "METRIC"
  | .both => "BOTH"

end Stage

structure Descriptor where
  tag : Tag
  header : String
  unit : MetricUnit
  stage : Stage
  largerIsBetter : Bool
  streamingOnly : Bool
  /-- The metrics that this one reads. -/
  required : List Tag
  deriving DecidableEq, Repr

def Descriptor.requires (d : Descriptor) (tag : Tag) : Bool := d.required.contains tag

end BenchMetrics
