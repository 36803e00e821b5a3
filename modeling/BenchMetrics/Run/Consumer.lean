import BenchMetrics.Run.Summary
/-! The consumer takes records one at a time until they end or a stop is seen. Before each
record, and before it learns that there are no more, it looks for the stop. -/
namespace BenchMetrics.Engine

/-- `stop n` tells whether the stop is visible before the record number `n`, counted from
`seen`. -/
def consumeFrom (e : Engine) (stop : Nat → Bool) (seen : Nat) :
    List Record → Except MetricError Summary
  | [] => e.finish (if stop seen then .cancelled else .completed)
  | r :: rs =>
    if stop seen then e.finish .cancelled
    else match e.process r with
      | (e, .ok ()) => e.consumeFrom stop (seen + 1) rs
      | (_, .error err) => .error err

def consume (e : Engine) (records : List Record) (stop : Nat → Bool) :
    Except MetricError Summary :=
  e.consumeFrom stop 0 records

end BenchMetrics.Engine
