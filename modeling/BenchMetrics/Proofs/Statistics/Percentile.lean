import Mathlib
import BenchMetrics.Statistics.Profile

/-! Percentiles in exact arithmetic. The rank of a percentile lies on the line through the indices
of the sorted numbers, its two indices are the whole numbers next to it, and the percentile is as
far from the lower number as the rank is from the lower index. A later rank lies in the same gap or
behind its upper end. -/
namespace BenchMetrics

/-- The index below the rank of a percentile. -/
def lowerIndex {α : Type} [Quantity α] (n : Nat) (p : α) : Nat :=
  Quantity.whole (percentileRank n p)

/-- The index above the rank of a percentile, which is the same one for a rank that is whole. -/
def upperIndex {α : Type} [Quantity α] (n : Nat) (p : α) : Nat :=
  rankCeiling (percentileRank n p) (lowerIndex n p)

section
variable {rank : ℚ}

theorem whole_eq_floor (rank : ℚ) : Quantity.whole rank = ⌊rank⌋₊ := rfl

theorem rankCeiling_eq_ceil (h : 0 ≤ rank) : rankCeiling rank (Quantity.whole rank) = ⌈rank⌉₊ := by
  have hless : rankCeiling rank (Quantity.whole rank) =
      if (⌊rank⌋₊ : ℚ) < rank then ⌊rank⌋₊ + 1 else ⌊rank⌋₊ := by
    simp only [rankCeiling, Quantity.less, decide_eq_true_eq]
    rfl
  rw [hless]
  split
  · rename_i hlt
    apply le_antisymm
    · exact Nat.lt_ceil.mpr hlt
    · exact Nat.ceil_le_floor_add_one rank
  · rename_i hnot
    have hwhole : (⌊rank⌋₊ : ℚ) = rank := le_antisymm (Nat.floor_le h) (not_lt.mp hnot)
    rw [← hwhole, Nat.floor_natCast, Nat.ceil_natCast]

theorem percentileRank_eq (n : ℕ) (p : ℚ) : percentileRank n p = p * (n - 1 : ℕ) / 100 := by
  have hrank : percentileRank n p = p / ((100 : ℕ) : ℚ) * ((n - 1 : ℕ) : ℚ) := rfl
  rw [hrank]
  push_cast
  ring

end

section
variable {sorted : List ℚ} {rank later a b x y : ℚ} {i j : ℕ}

theorem le_of_getElem? (h : sorted.Pairwise (· ≤ ·)) (hi : sorted[i]? = some a)
    (hj : sorted[j]? = some b) (hij : i ≤ j) : a ≤ b := by
  obtain ⟨hilt, rfl⟩ := List.getElem?_eq_some_iff.mp hi
  obtain ⟨hjlt, rfl⟩ := List.getElem?_eq_some_iff.mp hj
  exact h.sortedLE.getElem_le_getElem_of_le hij

/-- A number that stands in a list at a rank: between its neighbours, as far from the lower one as
the rank is from the lower index. -/
structure StandsAt (sorted : List ℚ) (rank x low high : ℚ) : Prop where
  lower : sorted[⌊rank⌋₊]? = some low
  upper : sorted[⌈rank⌉₊]? = some high
  value : x = low + (high - low) * (rank - ⌊rank⌋₊)

theorem exists_standsAt (h : 0 ≤ rank) (hrank : ⌈rank⌉₊ < sorted.length) :
    ∃ x low high, interpolate? sorted rank = some x ∧ StandsAt sorted rank x low high := by
  have hfloor : ⌊rank⌋₊ < sorted.length := (Nat.floor_le_ceil rank).trans_lt hrank
  have hlow := List.getElem?_eq_getElem hfloor
  have hhigh := List.getElem?_eq_getElem hrank
  have hinterpolate : interpolate? sorted rank = if ⌊rank⌋₊ = ⌈rank⌉₊ then sorted[⌊rank⌋₊]? else
      sorted[⌊rank⌋₊]?.bind fun low => sorted[⌈rank⌉₊]?.bind fun high =>
        some (low * ((1 : ℕ) - (rank - ⌊rank⌋₊)) + high * (rank - ⌊rank⌋₊)) := by
    rw [← rankCeiling_eq_ceil h]
    rfl
  refine ⟨_, _, _, ?_, hlow, hhigh, rfl⟩
  rw [hinterpolate]
  split
  · rename_i hsame
    simp [hsame]
  · rw [hlow, hhigh, Option.bind_some, Option.bind_some]
    congr 1
    push_cast
    ring

namespace StandsAt
variable {low high low' high' : ℚ}

theorem low_le_high (h : StandsAt sorted rank x low high) (hsorted : sorted.Pairwise (· ≤ ·)) :
    low ≤ high :=
  le_of_getElem? hsorted h.lower h.upper (Nat.floor_le_ceil rank)

theorem low_le (h : StandsAt sorted rank x low high) (hsorted : sorted.Pairwise (· ≤ ·))
    (hrank : 0 ≤ rank) : low ≤ x := by
  have hgap := sub_nonneg.mpr (h.low_le_high hsorted)
  have hfraction := sub_nonneg.mpr (Nat.floor_le hrank)
  rw [h.value]
  exact le_add_of_nonneg_right (mul_nonneg hgap hfraction)

theorem le_high (h : StandsAt sorted rank x low high) (hsorted : sorted.Pairwise (· ≤ ·)) :
    x ≤ high := by
  have hgap := sub_nonneg.mpr (h.low_le_high hsorted)
  have hfraction : rank - ⌊rank⌋₊ ≤ 1 :=
    sub_le_iff_le_add'.mpr (Nat.lt_floor_add_one rank).le
  calc x = low + (high - low) * (rank - ⌊rank⌋₊) := h.value
    _ ≤ low + (high - low) * 1 := by gcongr
    _ = high := by ring

/-- At a whole rank stands the number with that index. -/
theorem getElem?_of_eq (h : StandsAt sorted rank x low high) {k : ℕ} (hk : rank = k) :
    sorted[k]? = some x := by
  have hlower := h.lower
  have hvalue := h.value
  rw [hk, Nat.floor_natCast] at hlower hvalue
  rw [hlower, hvalue]
  simp

/-- Two ranks have a number of the list between them, or lie in one gap, where both numbers stand on
one line. -/
theorem le_of_le (h : StandsAt sorted rank x low high) (h' : StandsAt sorted later y low' high')
    (hsorted : sorted.Pairwise (· ≤ ·)) (hrank : 0 ≤ rank) (hle : rank ≤ later) : x ≤ y := by
  have hstep := Nat.ceil_le_floor_add_one rank
  have hstep' := Nat.ceil_le_floor_add_one later
  have hfloor := Nat.floor_mono hle
  have hceil := Nat.ceil_mono hle
  by_cases hparted : ⌈rank⌉₊ ≤ ⌊later⌋₊
  · calc x ≤ high := h.le_high hsorted
      _ ≤ low' := le_of_getElem? hsorted h.upper h'.lower hparted
      _ ≤ y := h'.low_le hsorted (hrank.trans hle)
  · have hlower : ⌊rank⌋₊ = ⌊later⌋₊ := by omega
    have hupper : ⌈rank⌉₊ = ⌈later⌉₊ := by omega
    obtain rfl : low = low' := Option.some.inj (h.lower.symm.trans (hlower ▸ h'.lower))
    obtain rfl : high = high' := Option.some.inj (h.upper.symm.trans (hupper ▸ h'.upper))
    rw [h.value, h'.value, hlower]
    have hgap := sub_nonneg.mpr (h.low_le_high hsorted)
    gcongr

end StandsAt

end

/-- What the percentile of sorted numbers is. -/
structure PercentileAt (sorted : List ℚ) (p x : ℚ) : Prop where
  answer : percentile? sorted p = some x
  lower_eq : lowerIndex sorted.length p = ⌊p * (sorted.length - 1 : ℕ) / 100⌋₊
  upper_eq : upperIndex sorted.length p = ⌈p * (sorted.length - 1 : ℕ) / 100⌉₊
  lower_lt : lowerIndex sorted.length p < sorted.length
  upper_lt : upperIndex sorted.length p < sorted.length
  whole : ∀ k : ℕ, p * (sorted.length - 1 : ℕ) / 100 = k → sorted[k]? = some x
  between : ∃ low high, sorted[lowerIndex sorted.length p]? = some low ∧
    sorted[upperIndex sorted.length p]? = some high ∧ low ≤ x ∧ x ≤ high

section
variable {sorted : List ℚ} {p q : ℚ}

theorem percentile?_eq (h : sorted ≠ []) (p : ℚ) :
    percentile? sorted p = interpolate? sorted (p * (sorted.length - 1 : ℕ) / 100) := by
  rw [percentile?, if_neg (by simpa using h), percentileRank_eq]

theorem rank_nonneg (n : ℕ) (hp : 0 ≤ p) : 0 ≤ p * (n - 1 : ℕ) / 100 := by positivity

theorem ceil_rank_le (n : ℕ) (hp : p ≤ 100) : ⌈p * (n - 1 : ℕ) / 100⌉₊ ≤ n - 1 := by
  apply Nat.ceil_le.mpr
  rw [div_le_iff₀ (by norm_num), mul_comm]
  gcongr

theorem exists_percentileAt (h : sorted ≠ []) (hsorted : sorted.Pairwise (· ≤ ·)) (hp : 0 ≤ p)
    (hp' : p ≤ 100) : ∃ x low high, PercentileAt sorted p x ∧
      StandsAt sorted (p * (sorted.length - 1 : ℕ) / 100) x low high := by
  have hlength := List.length_pos_of_ne_nil h
  have hnonneg := rank_nonneg sorted.length hp
  have hupper : ⌈p * (sorted.length - 1 : ℕ) / 100⌉₊ < sorted.length := by
    have hle := ceil_rank_le sorted.length hp'
    omega
  have hlower_eq : lowerIndex sorted.length p = ⌊p * (sorted.length - 1 : ℕ) / 100⌋₊ := by
    rw [lowerIndex, percentileRank_eq, whole_eq_floor]
  have hupper_eq : upperIndex sorted.length p = ⌈p * (sorted.length - 1 : ℕ) / 100⌉₊ := by
    rw [upperIndex, lowerIndex, percentileRank_eq, rankCeiling_eq_ceil hnonneg]
  obtain ⟨x, low, high, hx, hstands⟩ := exists_standsAt hnonneg hupper
  refine ⟨x, low, high, ?_, hstands⟩
  exact {
    answer := (percentile?_eq h p).trans hx
    lower_eq := hlower_eq
    upper_eq := hupper_eq
    lower_lt := hlower_eq ▸ (Nat.floor_le_ceil _).trans_lt hupper
    upper_lt := hupper_eq ▸ hupper
    whole := fun _ hk => hstands.getElem?_of_eq hk
    between := ⟨low, high, hlower_eq ▸ hstands.lower, hupper_eq ▸ hstands.upper,
      hstands.low_le hsorted hnonneg, hstands.le_high hsorted⟩ }

theorem PercentileAt.unique {x y : ℚ} (hx : PercentileAt sorted p x)
    (hy : PercentileAt sorted p y) : x = y :=
  Option.some.inj (hx.answer.symm.trans hy.answer)

theorem PercentileAt.le_of_le {x y : ℚ} (hx : PercentileAt sorted p x)
    (hy : PercentileAt sorted q y) (h : sorted ≠ []) (hsorted : sorted.Pairwise (· ≤ ·))
    (hp : 0 ≤ p) (hle : p ≤ q) (hq : q ≤ 100) : x ≤ y := by
  obtain ⟨x', _, _, hx', hstands⟩ := exists_percentileAt h hsorted hp (hle.trans hq)
  obtain ⟨y', _, _, hy', hstands'⟩ := exists_percentileAt h hsorted (hp.trans hle) hq
  obtain rfl := hx.unique hx'
  obtain rfl := hy.unique hy'
  apply hstands.le_of_le hstands' hsorted (rank_nonneg _ hp)
  gcongr

/-- Percentiles that are asked for in ascending order come in ascending order. -/
theorem pairwise_percentiles {value : ℕ → ℚ} (h : sorted ≠ []) (hsorted : sorted.Pairwise (· ≤ ·))
    (hvalue : ∀ p : ℕ, p ≤ 100 → PercentileAt sorted p (value p)) {ps : List ℕ}
    (hps : ps.Pairwise (· ≤ ·)) (hbound : ∀ p ∈ ps, p ≤ 100) :
    (ps.map value).Pairwise (· ≤ ·) := by
  apply List.pairwise_map.mpr (hps.imp_of_mem _)
  intro p q hp hq hle
  exact (hvalue p (hbound p hp)).le_of_le (hvalue q (hbound q hq)) h hsorted (Nat.cast_nonneg p)
    (Nat.cast_le.mpr hle) (by exact_mod_cast hbound q hq)

/-- The first number is the percentile of nothing, and the last that of all. -/
theorem percentileAt_ends (h : sorted ≠ []) (hsorted : sorted.Pairwise (· ≤ ·)) :
    ∃ lo hi, sorted.head? = some lo ∧ sorted.getLast? = some hi ∧
      PercentileAt sorted 0 lo ∧ PercentileAt sorted 100 hi := by
  obtain ⟨lo, _, _, hlo, _⟩ := exists_percentileAt h hsorted (le_refl 0) (by norm_num)
  obtain ⟨hi, _, _, hhi, _⟩ := exists_percentileAt h hsorted (by norm_num) (le_refl 100)
  have hfirst := hlo.whole 0 (by simp)
  have hlast := hhi.whole (sorted.length - 1) (by field_simp)
  exact ⟨lo, hi, List.head?_eq_getElem?.trans hfirst, List.getLast?_eq_getElem?.trans hlast, hlo, hhi⟩

end

end BenchMetrics
