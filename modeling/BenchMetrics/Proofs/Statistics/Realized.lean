import BenchMetrics.Statistics.Result
import Mathlib.Data.List.Basic

/-! The numbers that are there. A result is made of them alone: of their count, and of the figures
of what they are in the unit of the report. -/
namespace BenchMetrics

theorem Value.realized_map (f : Float → Float) (v : Value) :
    (v.map f).realized = v.realized.map (Sample.map f) := by
  cases v with
  | unset | scalar => rfl
  | series slots =>
    simp only [Value.map, realized, Array.toList_map, List.filterMap_map, List.map_filterMap]
    apply List.filterMap_congr
    intro slot _
    cases slot <;> rfl

namespace Descriptor

/-- What becomes of a sample in the unit of a report; without a unit of time it is kept. -/
def inUnit (d : Descriptor) (unit : TimeUnit) (s : Sample) : Sample :=
  d.unit.timeUnit?.elim s fun source => s.map (source.convert · unit)

def converted (d : Descriptor) (unit : TimeUnit) (v : Value) : Value :=
  d.unit.timeUnit?.elim v fun source => v.map (source.convert · unit)

def label (d : Descriptor) (unit : TimeUnit) : String :=
  d.unit.timeUnit?.elim d.unit.text fun _ => unit.short

theorem displayed_eq (d : Descriptor) (v : Value) (unit : TimeUnit) :
    d.displayed v unit = .ok (d.converted unit v, d.label unit) := by
  unfold displayed Value.rescale converted label
  cases hunit : d.unit <;> rfl

theorem realized_converted (d : Descriptor) (unit : TimeUnit) (v : Value) :
    (d.converted unit v).realized = v.realized.map (d.inUnit unit) := by
  unfold converted inUnit
  cases d.unit.timeUnit? with
  | none => exact v.realized.map_id.symm
  | some source => exact Value.realized_map _ v

end Descriptor

namespace MetricResult
variable {d : Descriptor} {v : Value} {unit : TimeUnit} {res : MetricResult}

theorem ofValue_eq (d : Descriptor) (v : Value) (unit : TimeUnit) : ofValue d v unit =
    .ok ⟨d.tag.text, d.header, d.label unit, d.stage, d.largerIsBetter, v.realized.length,
      .ofValue (d.converted unit v)⟩ := by
  have hcount : (d.converted unit v).realized.length = v.realized.length := by
    rw [d.realized_converted, List.length_map]
  rw [ofValue, d.displayed_eq, ← hcount]
  rfl

theorem ofValue_ok (d : Descriptor) (v : Value) (unit : TimeUnit) :
    ∃ result, ofValue d v unit = .ok result :=
  ⟨_, ofValue_eq d v unit⟩

theorem tag_of_ofValue (h : ofValue d v unit = .ok res) : res.tag = d.tag.text := by
  rw [ofValue_eq] at h
  cases h
  rfl

theorem count_of_ofValue (h : ofValue d v unit = .ok res) : res.count = v.realized.length := by
  rw [ofValue_eq] at h
  cases h
  rfl

end MetricResult
end BenchMetrics
