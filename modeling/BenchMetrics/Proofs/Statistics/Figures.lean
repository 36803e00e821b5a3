import BenchMetrics.Metric.Standard
import BenchMetrics.Proofs.Statistics.Rank
import BenchMetrics.Proofs.Statistics.Realized

/-! The figures of a series. They are computed from its sorted numbers, and the order in which
these are sorted leaves no choice: so they depend on which numbers are there and on nothing else. -/
namespace BenchMetrics

namespace Sample
variable {xs ys : List Sample}

theorem upTo_refl (a : Sample) : a.upTo a := by
  simpa using upTo_total a a

theorem pairwise_sorted (xs : List Sample) : (xs.mergeSort upTo).Pairwise (upTo · ·) :=
  List.pairwise_mergeSort (fun a b c => @upTo_trans a b c) upTo_total xs

theorem ascending_eq_of_perm (h : xs.Perm ys) : ascending xs = ascending ys := by
  have hperm : (xs.mergeSort upTo).Perm (ys.mergeSort upTo) :=
    ((List.mergeSort_perm _ _).trans h).trans (List.mergeSort_perm _ _).symm
  have hsorted : xs.mergeSort upTo = ys.mergeSort upTo :=
    hperm.eq_of_pairwise (fun _ _ _ _ => eq_of_upTo) (pairwise_sorted xs) (pairwise_sorted ys)
  rw [ascending, ascending, hsorted]

theorem sorted_ne_nil (h : xs ≠ []) : xs.mergeSort upTo ≠ [] :=
  fun hnil => h (List.nil_perm.mp (hnil ▸ List.mergeSort_perm xs upTo))

/-- The first of sorted samples is one that stands before all. -/
theorem exists_least (h : xs ≠ []) : ∃ lo ∈ xs, (∀ x ∈ xs, lo.upTo x) ∧
    (ascending xs).head? = some lo.toFloat := by
  have hne := sorted_ne_nil h
  refine ⟨_, List.mem_mergeSort.mp (List.head_mem hne), fun x hx => ?_, ?_⟩
  · exact (pairwise_sorted xs).rel_head_of_rel_head_head (List.mem_mergeSort.mpr hx) (upTo_refl _)
  · rw [ascending, List.head?_map, List.head?_eq_some_head hne, Option.map_some]

theorem exists_greatest (h : xs ≠ []) : ∃ hi ∈ xs, (∀ x ∈ xs, x.upTo hi) ∧
    (ascending xs).getLast? = some hi.toFloat := by
  have hne := sorted_ne_nil h
  refine ⟨_, List.mem_mergeSort.mp (List.getLast_mem hne), fun x hx => ?_, ?_⟩
  · exact (pairwise_sorted xs).rel_getLast_of_rel_getLast_getLast (List.mem_mergeSort.mpr hx)
      (upTo_refl _)
  · rw [ascending, List.getLast?_map, List.getLast?_eq_some_getLast hne, Option.map_some]

end Sample

namespace Figures

def toList (f : Figures) : List (Option Float) :=
  [f.avg, f.min, f.max, f.std, f.p1, f.p5, f.p10, f.p25, f.p50, f.p75, f.p90, f.p95, f.p99]

/-- The figures of samples: complete, with the least and the greatest of them in the order in which
they are sorted, or absent if there are none. -/
structure Describe (f : Figures) (xs : List Sample) : Prop where
  complete : xs ≠ [] → ∀ x ∈ f.toList, x.isSome
  least : xs ≠ [] → ∃ lo ∈ xs, (∀ x ∈ xs, lo.upTo x) ∧ f.min = some lo.toFloat
  greatest : xs ≠ [] → ∃ hi ∈ xs, (∀ x ∈ xs, x.upTo hi) ∧ f.max = some hi.toFloat
  absent : xs = [] → ∀ x ∈ f.toList, x = Option.none

theorem ofValue_series (slots : Array (Option Sample)) : ofValue (.series slots) =
    ((profile? (Sample.ascending (Value.series slots).realized)).map ofProfile).getD .none := rfl

theorem describe_series (slots : Array (Option Sample)) :
    (ofValue (.series slots)).Describe (Value.series slots).realized := by
  rw [ofValue_series]
  generalize (Value.series slots).realized = xs
  by_cases hxs : xs = []
  · subst hxs
    refine ⟨fun h => absurd rfl h, fun h => absurd rfl h, fun h => absurd rfl h, fun _ => ?_⟩
    have hnone : profile? (Sample.ascending []) = Option.none := by
      rw [Sample.ascending, List.mergeSort_nil, List.map_nil]
      rfl
    rw [hnone]
    simp [toList, Figures.none]
  · obtain ⟨lo, hlo, hleast, hhead⟩ := Sample.exists_least hxs
    obtain ⟨hi, hhi, hgreatest, hlast⟩ := Sample.exists_greatest hxs
    have hne : Sample.ascending xs ≠ [] := by
      intro hnil
      rw [hnil] at hhead
      cases hhead
    rw [profile?, hhead, hlast]
    have hpercentile {p : Nat} (hp : 0 < p) (hp' : p < 100) := isSome_percentile? hne hp hp'
    refine ⟨fun _ => ?_, fun _ => ⟨lo, hlo, hleast, rfl⟩, fun _ => ⟨hi, hhi, hgreatest, rfl⟩,
      fun h => absurd h hxs⟩
    simp [toList, ofProfile, hpercentile]

end Figures

theorem Descriptor.converted_series (d : Descriptor) (unit : TimeUnit)
    (slots : Array (Option Sample)) : ∃ shown, d.converted unit (.series slots) = .series shown := by
  unfold converted
  cases d.unit.timeUnit? with
  | none => exact ⟨slots, rfl⟩
  | some source => exact ⟨_, rfl⟩

namespace MetricResult

/-- A result of a series depends on its samples alone: not on their order, and not on the slots
without one. A result can be made of every value and counts the samples, and the figures of a
series are all there if any sample is, with the least and the greatest of the converted ones. -/
theorem ofValue_realized (d : Descriptor) (unit : TimeUnit) :
    (∀ xs ys : Array (Option Sample), (Value.series xs).realized.Perm (Value.series ys).realized →
      ofValue d (.series xs) unit = ofValue d (.series ys) unit) ∧
    ∀ v, ∃ res, ofValue d v unit = .ok res ∧ res.count = v.realized.length ∧
      ∀ slots, v = .series slots → res.figures.Describe (v.realized.map (d.inUnit unit)) := by
  -- a series is still a series in the unit of the report
  constructor
  · intro xs ys hperm
    obtain ⟨xs', hxs⟩ := d.converted_series unit xs
    obtain ⟨ys', hys⟩ := d.converted_series unit ys
    have hconverted : (Value.series xs').realized.Perm (Value.series ys').realized := by
      rw [← hxs, ← hys, d.realized_converted, d.realized_converted]
      exact hperm.map _
    rw [ofValue_eq, ofValue_eq, hperm.length_eq, hxs, hys, Figures.ofValue_series,
      Figures.ofValue_series, Sample.ascending_eq_of_perm hconverted]
  · intro v
    refine ⟨_, ofValue_eq d v unit, rfl, ?_⟩
    rintro slots rfl
    obtain ⟨shown, hshown⟩ := d.converted_series unit slots
    rw [← d.realized_converted, hshown]
    exact Figures.describe_series shown

/-- Both zeros and what is no number, in two series of different length. -/
theorem ofValue_realized_zeros :
    let d := Standard.timeOf Standard.requestLatency "Request Latency" .record false []
    let xs : Array (Option Sample) := #[some (.of 0.0), some (.of (0.0 / 0.0)), some (.of (-0.0))]
    let ys : Array (Option Sample) :=
      #[none, some (.of (-0.0)), some (.of 0.0), none, none, some (.of (0.0 / 0.0))]
    ofValue d (.series xs) .milliseconds = ofValue d (.series ys) .milliseconds ∧
      ∃ res, ofValue d (.series xs) .milliseconds = .ok res ∧ res.count = 3 ∧
        res.figures.min = some (-0.0) ∧ res.figures.max = some (0.0 / 0.0) ∧
        ∀ x ∈ res.figures.toList, x.isSome := by
  intro d xs ys
  have hxs : (Value.series xs).realized = [.of 0.0, .of (0.0 / 0.0), .of (-0.0)] := rfl
  have hys : (Value.series ys).realized = [.of (-0.0), .of 0.0, .of (0.0 / 0.0)] := rfl
  obtain ⟨hsame, hall⟩ := ofValue_realized d .milliseconds
  obtain ⟨res, hres, hcount, hfigures⟩ := hall (.series xs)
  have hdescribe := hfigures xs rfl
  have hshown : (Value.series xs).realized.map (d.inUnit .milliseconds) =
      [.of 0.0, .of (0.0 / 0.0), .of (-0.0)] := by
    rw [hxs]
    decide +kernel
  rw [hshown] at hdescribe
  have hne : [Sample.of 0.0, .of (0.0 / 0.0), .of (-0.0)] ≠ [] := List.cons_ne_nil _ _
  have hlow : ∀ x ∈ [Sample.of 0.0, .of (0.0 / 0.0), .of (-0.0)], (Sample.of (-0.0)).upTo x := by
    decide +kernel
  have hhigh : ∀ x ∈ [Sample.of 0.0, .of (0.0 / 0.0), .of (-0.0)],
      x.upTo (Sample.of (0.0 / 0.0)) := by
    decide +kernel
  refine ⟨hsame xs ys ?_, res, hres, hcount, ?_, ?_, hdescribe.complete hne⟩
  · rw [hxs, hys]
    decide +kernel
  · obtain ⟨lo, hlo, hleast, hmin⟩ := hdescribe.least hne
    rw [hmin, Sample.eq_of_upTo (hleast _ (by simp)) (hlow lo hlo)]
    rfl
  · obtain ⟨hi, hhi, hgreatest, hmax⟩ := hdescribe.greatest hne
    rw [hmax, Sample.eq_of_upTo (hhigh hi hhi) (hgreatest _ (by simp))]
    rfl

end MetricResult
end BenchMetrics
