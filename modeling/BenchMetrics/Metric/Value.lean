import BenchMetrics.Metric.Descriptor
import BenchMetrics.Metric.Sample
/-! What a metric has accumulated: nothing, one number, or a slot per record. -/
namespace BenchMetrics

inductive Value where
  | unset
  | scalar (x : Float)
  /-- One slot per record in the order of arrival, empty where the record was of no use. -/
  | series (slots : Array (Option Sample))
  deriving DecidableEq

namespace Value

def scalar? : Value → Option Float
  | .scalar x => some x
  | _ => none

def series? : Value → Option (Array (Option Sample))
  | .series slots => some slots
  | _ => none

/-- Adds a slot; what is no series becomes one. -/
def push (v : Value) (slot : Option Sample) : Value :=
  match v with
  | .series slots => .series (slots.push slot)
  | _ => .series #[slot]

/-- The numbers that are there. -/
def realized : Value → List Sample
  | .unset => []
  | .scalar x => [.of x]
  | .series slots => slots.toList.filterMap id

def isUnset : Value → Bool
  | .unset => true
  | _ => false

def map (f : Float → Float) : Value → Value
  | .unset => .unset
  | .scalar x => .scalar (f x)
  | .series slots => .series (slots.map (Option.map (Sample.map f)))

/-- The value of a time metric in another unit. -/
def rescale (d : Descriptor) (v : Value) (target : TimeUnit) : Except MetricError Value :=
  match d.unit.timeUnit? with
  | some source => .ok (v.map (source.convert · target))
  | none => .error (.notATimeMetric d.tag)

end Value
end BenchMetrics
