import BenchMetrics.Proofs.Statistics.Figures
import BenchMetrics.Proofs.Statistics.Percentile

/-! The statistics of a series in exact arithmetic. One function makes a profile of samples of any
kind: read as floats it is the one that is reported, read as rationals it has its figures in order,
the mean among them, and a variance that has a root. -/
namespace BenchMetrics

/-- The conversion between units, of numbers of any kind. -/
def TimeUnit.convertIn {α : Type} [Quantity α] (source : TimeUnit) (value : α)
    (target : TimeUnit) : α :=
  let e := source.exponent - target.exponent
  if 0 ≤ e then value * Quantity.ofNat (Nat.pow 10 e.natAbs)
  else value / Quantity.ofNat (Nat.pow 10 e.natAbs)

/-- How samples are read: in which order they are sorted, what a change of scale makes of them, and
which number each of them is. -/
structure Reading (σ α : Type) where
  upTo : σ → σ → Bool
  map : (α → α) → σ → σ
  number : σ → α

namespace Reading

def floats : Reading Sample Float := ⟨Sample.upTo, Sample.map, Sample.toFloat⟩

def exact : Reading ℚ ℚ := ⟨fun a b => a ≤ b, id, id⟩

section
variable {σ α : Type} [Quantity α]

/-- What becomes of a sample in the unit of a report. -/
def inUnit (R : Reading σ α) (d : Descriptor) (unit : TimeUnit) (s : σ) : σ :=
  d.unit.timeUnit?.elim s fun source => R.map (source.convertIn · unit) s

/-- The profile of the samples that a series holds, in the unit of a report. -/
def profile? (R : Reading σ α) (d : Descriptor) (unit : TimeUnit) (slots : List (Option σ)) :
    Option (Profile α) :=
  BenchMetrics.profile?
    ((((slots.filterMap id).map (R.inUnit d unit)).mergeSort R.upTo).map R.number)

end

/-- Read as floats, the profile is the one that the figures of a result are made of. -/
theorem figures_eq (d : Descriptor) (unit : TimeUnit) (slots : Array (Option Sample)) :
    Figures.ofValue (d.converted unit (.series slots)) =
      ((floats.profile? d unit slots.toList).map Figures.ofProfile).getD .none := by
  obtain ⟨shown, hshown⟩ := d.converted_series unit slots
  have hunit : d.inUnit unit = floats.inUnit d unit := rfl
  rw [hshown, Figures.ofValue_series, ← hshown, d.realized_converted, Sample.ascending, hunit]
  rfl

end Reading

/-! Means and variances of exact numbers. -/
section
variable {xs : List ℚ} {lo hi : ℚ}

theorem total_eq_sum (xs : List ℚ) : total xs = xs.sum := List.sum_eq_foldl.symm

theorem mean_eq (xs : List ℚ) : mean xs = xs.sum / xs.length := by
  rw [← total_eq_sum]
  rfl

theorem le_mean (hne : xs ≠ []) (h : ∀ x ∈ xs, lo ≤ x) : lo ≤ mean xs := by
  have hpos : (0 : ℚ) < xs.length := Nat.cast_pos.mpr (List.length_pos_of_ne_nil hne)
  rw [mean_eq, le_div_iff₀ hpos]
  calc lo * xs.length = xs.length • lo := by rw [nsmul_eq_mul, mul_comm]
    _ ≤ xs.sum := List.card_nsmul_le_sum xs lo h

theorem mean_le (hne : xs ≠ []) (h : ∀ x ∈ xs, x ≤ hi) : mean xs ≤ hi := by
  have hpos : (0 : ℚ) < xs.length := Nat.cast_pos.mpr (List.length_pos_of_ne_nil hne)
  rw [mean_eq, div_le_iff₀ hpos]
  calc xs.sum ≤ xs.length • hi := List.sum_le_card_nsmul xs hi h
    _ = hi * xs.length := by rw [nsmul_eq_mul, mul_comm]

theorem variance_nonneg (xs : List ℚ) : 0 ≤ variance xs := by
  have hvariance : variance xs =
      (xs.map fun x => (x - mean xs) * (x - mean xs)).sum / xs.length := by
    rw [← total_eq_sum]
    rfl
  rw [hvariance]
  apply div_nonneg _ (Nat.cast_nonneg _)
  apply List.sum_nonneg
  intro square hsquare
  obtain ⟨x, _, rfl⟩ := List.mem_map.mp hsquare
  exact mul_self_nonneg _

end

/-- The percentiles that are reported. -/
def reportedPercentiles : List ℕ := [1, 5, 10, 25, 50, 75, 90, 95, 99]

theorem Figures.toList_ofProfile (P : Profile Float) : (ofProfile P).toList =
    [some P.mean, some P.min, some P.max, some P.variance.sqrt] ++
      reportedPercentiles.map P.percentile := rfl

/-- The figures of a profile stand in order, and its variance has a root. -/
structure Profile.Ordered (P : Profile ℚ) : Prop where
  ascending : ∃ xs : List ℚ, reportedPercentiles.map P.percentile = xs.map some ∧
    (P.min :: (xs ++ [P.max])).Pairwise (· ≤ ·)
  min_le_mean : P.min ≤ P.mean
  mean_le_max : P.mean ≤ P.max
  variance_nonneg : 0 ≤ P.variance

theorem profile?_ordered {sorted : List ℚ} (h : sorted ≠ []) (hsorted : sorted.Pairwise (· ≤ ·)) :
    ∃ P, profile? sorted = some P ∧ P.Ordered := by
  obtain ⟨lo, hi, hhead, hlast, hlo, hhi⟩ := percentileAt_ends h hsorted
  have hexists : ∀ p : ℕ, p ≤ 100 → ∃ x, PercentileAt sorted p x := by
    intro p hp
    obtain ⟨x, _, _, hx, _⟩ :=
      exists_percentileAt h hsorted (Nat.cast_nonneg p) (by exact_mod_cast hp)
    exact ⟨x, hx⟩
  choose! value hvalue using hexists
  -- the least and the greatest are percentiles as well, so that one list holds all in order
  have hmin : value 0 = lo := by
    have hzero := hvalue 0 (Nat.zero_le _)
    rw [Nat.cast_zero] at hzero
    exact hzero.unique hlo
  have hmax : value 100 = hi := by
    have hall := hvalue 100 (Nat.le_refl _)
    rw [Nat.cast_ofNat] at hall
    exact hall.unique hhi
  have hascending : ((0 :: (reportedPercentiles ++ [100])).map value).Pairwise (· ≤ ·) :=
    pairwise_percentiles h hsorted hvalue (by decide) (by decide)
  rw [List.map_cons, List.map_append, List.map_singleton, hmin, hmax] at hascending
  refine ⟨⟨mean sorted, lo, hi, variance sorted, fun p => percentile? sorted (Quantity.ofNat p)⟩,
    by rw [profile?, hhead, hlast], ?_⟩
  refine ⟨⟨reportedPercentiles.map value, ?_, hascending⟩, ?_, ?_, variance_nonneg sorted⟩
  · rw [List.map_map]
    apply List.map_congr_left
    intro p hp
    exact (hvalue p (by revert p; decide)).answer
  · apply le_mean h
    intro x hx
    obtain ⟨i, hi⟩ := List.mem_iff_getElem?.mp hx
    exact le_of_getElem? hsorted (List.head?_eq_getElem?.symm.trans hhead) hi (Nat.zero_le i)
  · apply mean_le h
    intro x hx
    obtain ⟨i, hlt, rfl⟩ := List.mem_iff_getElem.mp hx
    exact le_of_getElem? hsorted (List.getElem?_eq_getElem hlt)
      (List.getLast?_eq_getElem?.symm.trans hlast) (by omega)

namespace Reading

theorem exact_upTo_iff {a b : ℚ} : exact.upTo a b ↔ a ≤ b := decide_eq_true_iff

theorem exact_profile?_ordered (d : Descriptor) (unit : TimeUnit) {slots : List (Option ℚ)}
    (h : ∃ x, some x ∈ slots) : ∃ P, exact.profile? d unit slots = some P ∧ P.Ordered := by
  obtain ⟨x, hx⟩ := h
  have hne : ((slots.filterMap id).map (exact.inUnit d unit)).mergeSort exact.upTo ≠ [] := by
    intro hnil
    have hmem : x ∈ slots.filterMap id := List.mem_filterMap.mpr ⟨some x, hx, rfl⟩
    have hempty := List.nil_perm.mp (hnil ▸ List.mergeSort_perm _ _)
    rw [List.map_eq_nil_iff.mp hempty] at hmem
    exact List.not_mem_nil hmem
  have hsorted : (((slots.filterMap id).map (exact.inUnit d unit)).mergeSort exact.upTo).Pairwise
      (· ≤ ·) := by
    have htrans : ∀ a b c : ℚ, exact.upTo a b → exact.upTo b c → exact.upTo a c := by
      simp only [exact_upTo_iff]
      exact fun _ _ _ => le_trans
    have htotal : ∀ a b : ℚ, exact.upTo a b || exact.upTo b a := by
      simp only [Bool.or_eq_true, exact_upTo_iff]
      exact le_total
    exact (List.pairwise_mergeSort htrans htotal _).imp exact_upTo_iff.mp
  rw [profile?, show exact.number = id from rfl, List.map_id]
  exact profile?_ordered hne hsorted

/-- In exact arithmetic percentiles of ascending numbers stand at their rank among them, and ascend
with what is asked for. What is made of floats to report the figures of a series is made of
rationals alike, and there the figures stand in order. -/
theorem percentiles_ordered :
    (∀ sorted : List ℚ, sorted ≠ [] → sorted.Pairwise (· ≤ ·) →
      ∀ p q : ℚ, 0 ≤ p → p ≤ q → q ≤ 100 → ∃ lo x y hi,
        sorted.head? = some lo ∧ PercentileAt sorted p x ∧ PercentileAt sorted q y ∧
        sorted.getLast? = some hi ∧ lo ≤ x ∧ x ≤ y ∧ y ≤ hi) ∧
    (∀ (d : Descriptor) (unit : TimeUnit) (slots : Array (Option Sample)), ∃ res,
      MetricResult.ofValue d (.series slots) unit = .ok res ∧
      res.figures = ((floats.profile? d unit slots.toList).map Figures.ofProfile).getD .none) ∧
    (∀ P : Profile Float, (Figures.ofProfile P).toList =
      [some P.mean, some P.min, some P.max, some P.variance.sqrt] ++
        reportedPercentiles.map P.percentile) ∧
    ∀ (d : Descriptor) (unit : TimeUnit) (slots : List (Option ℚ)), (∃ x, some x ∈ slots) →
      ∃ P, exact.profile? d unit slots = some P ∧ P.Ordered := by
  refine ⟨fun sorted h hsorted p q hp hle hq => ?_, fun d unit slots => ?_,
    Figures.toList_ofProfile, fun d unit slots => exact_profile?_ordered d unit⟩
  · obtain ⟨lo, hi, hhead, hlast, hlo, hhi⟩ := percentileAt_ends h hsorted
    obtain ⟨x, _, _, hx, _⟩ := exists_percentileAt h hsorted hp (hle.trans hq)
    obtain ⟨y, _, _, hy, _⟩ := exists_percentileAt h hsorted (hp.trans hle) hq
    exact ⟨lo, x, y, hi, hhead, hx, hy, hlast,
      hlo.le_of_le hx h hsorted (le_refl 0) hp (hle.trans hq),
      hx.le_of_le hy h hsorted hp hle hq,
      hy.le_of_le hhi h hsorted (hp.trans hle) hq (le_refl 100)⟩
  · exact ⟨_, MetricResult.ofValue_eq d _ unit, figures_eq d unit slots⟩

/-- Percentiles at whole ranks, and a series of times with an empty slot. -/
theorem percentiles_ordered_whole :
    percentile? [1, 2, 3, 4, (5 : ℚ)] 25 = some 2 ∧
    percentile? [1, 2, 3, 4, (5 : ℚ)] 50 = some 3 ∧
    ∃ P, exact.profile?
        (Standard.timeOf Standard.requestLatency "Request Latency" .record false [])
        .milliseconds [some 5000000, none, some 5000000, some 10000000] = some P ∧ P.Ordered := by
  obtain ⟨hexact, _, _, hordered⟩ := percentiles_ordered
  obtain ⟨_, x, y, _, _, hx, hy, _⟩ := hexact [1, 2, 3, 4, 5] (List.cons_ne_nil _ _) (by decide)
    25 50 (by norm_num) (by norm_num) (by norm_num)
  refine ⟨?_, ?_, hordered _ _ _ ⟨5000000, by simp⟩⟩
  · rw [hx.answer, ← hx.whole 1 (by norm_num)]
    rfl
  · rw [hy.answer, ← hy.whole 2 (by norm_num)]
    rfl

end Reading
end BenchMetrics
