import BenchMetrics.Metric.Value
import BenchMetrics.Statistics.Profile
/-! The statistics of one metric as they are reported. -/
namespace BenchMetrics

/-- The figures of a metric; those that do not apply are absent. -/
structure Figures where
  avg : Option Float
  min : Option Float
  max : Option Float
  std : Option Float
  p1 : Option Float
  p5 : Option Float
  p10 : Option Float
  p25 : Option Float
  p50 : Option Float
  p75 : Option Float
  p90 : Option Float
  p95 : Option Float
  p99 : Option Float
  deriving DecidableEq

def Figures.none : Figures := ⟨.none, .none, .none, .none, .none, .none, .none, .none, .none,
  .none, .none, .none, .none⟩

def Figures.ofProfile (p : Profile Float) : Figures :=
  ⟨p.mean, p.min, p.max, p.variance.sqrt, p.percentile 1, p.percentile 5, p.percentile 10,
    p.percentile 25, p.percentile 50, p.percentile 75, p.percentile 90, p.percentile 95,
    p.percentile 99⟩

/-- A single number has an average only. -/
def Figures.ofValue : Value → Figures
  | .unset => .none
  | .scalar x => { Figures.none with avg := some x }
  | .series slots =>
    ((profile? (Sample.ascending (slots.toList.filterMap id))).map ofProfile).getD .none

structure MetricResult where
  tag : String
  header : String
  /-- The unit of the figures. -/
  unit : String
  stage : Stage
  largerIsBetter : Bool
  /-- How many numbers were there. -/
  count : Nat
  figures : Figures
  deriving DecidableEq

def MetricResult.hasValue (r : MetricResult) : Bool := 0 < r.count

/-- The value of a metric in the unit of the report. -/
def Descriptor.displayed (d : Descriptor) (v : Value) (unit : TimeUnit) :
    Except MetricError (Value × String) :=
  match d.unit with
  | .time _ => (v.rescale d unit).map (·, unit.short)
  | .plain label => .ok (v, label)

def MetricResult.ofValue (d : Descriptor) (v : Value) (unit : TimeUnit) :
    Except MetricError MetricResult := do
  let (shown, unit) ← d.displayed v unit
  .ok ⟨d.tag.text, d.header, unit, d.stage, d.largerIsBetter, shown.realized.length,
    .ofValue shown⟩

end BenchMetrics
