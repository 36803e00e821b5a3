import BenchMetrics.Proofs.Number.WholePart
import BenchMetrics.Statistics.Profile

/-! Ranks stay among the numbers that they rank. The rank of a percentile is a rounded quotient
times a rounded count, rounded again: three roundings, and a fourth for the count, that together
are less than what is missing to the next number. -/
namespace BenchMetrics

section
variable {α : Type} [Quantity α] {sorted : List α} {rank : α}

theorem rankCeiling_cases (rank : α) (lower : Nat) :
    rankCeiling rank lower = lower ∨ rankCeiling rank lower = lower + 1 := by
  rw [rankCeiling]
  split
  · exact Or.inr rfl
  · exact Or.inl rfl

theorem rankCeiling_lt {n : Nat} (h : Quantity.whole rank < n - 1) :
    rankCeiling rank (Quantity.whole rank) < n := by
  have hcases := rankCeiling_cases rank (Quantity.whole rank)
  omega

/-- There is a number between two neighbours if the second of them is there. -/
theorem isSome_interpolate? (h : rankCeiling rank (Quantity.whole rank) < sorted.length) :
    (interpolate? sorted rank).isSome := by
  have hcases := rankCeiling_cases rank (Quantity.whole rank)
  have hlower : Quantity.whole rank < sorted.length := by omega
  simp only [interpolate?]
  split
  · rw [List.getElem?_eq_getElem hlower]
    rfl
  · rw [List.getElem?_eq_getElem hlower, List.getElem?_eq_getElem h]
    rfl

end

section
variable {n p : Nat}

theorem held_hundred : Held (Float.ofNat 100) (100 * 2 ^ 46) (-46) where
  full := ⟨by decide, by decide⟩
  low := by decide
  high := by decide
  eq := by decide +kernel

theorem dyadic_hundred : dyadic (100 * 2 ^ 46) (-46) = 100 := by
  norm_num [dyadic]

/-- The share of the numbers that lie below a percentile. -/
theorem held_share (hp : 0 < p) (hp' : p < 100) :
    ∃ m e, Held (Float.ofNat p / Float.ofNat 100) m e ∧ -59 ≤ e ∧ e ≤ 7 ∧
      dyadic m e ≤ 99 / 100 * slack ^ 2 := by
  obtain ⟨m, e, hheld, hlow, hhigh, hbound⟩ := held_ofNat hp (by omega)
  obtain ⟨q, t, hquotient, hlow', hhigh', hshare⟩ := hheld.div held_hundred (by omega) (by omega)
  have hle : (p : ℚ) ≤ 99 := by exact_mod_cast Nat.le_of_lt_succ hp'
  have hslack := slack_pos
  refine ⟨q, t, hquotient, by omega, by omega, ?_⟩
  calc dyadic q t ≤ dyadic m e / 100 * slack := dyadic_hundred ▸ hshare
    _ ≤ 99 * slack / 100 * slack := by
      have hwhole : dyadic m e ≤ 99 * slack :=
        hbound.trans (mul_le_mul_of_nonneg_right hle hslack.le)
      gcongr
    _ = 99 / 100 * slack ^ 2 := by ring

/-- The whole part of a rank is the index of a number that has another one above it. -/
theorem whole_rank_lt (hp : 0 < p) (hp' : p < 100) (hn : 0 < n) :
    (Float.ofNat p / Float.ofNat 100 * Float.ofNat n).toUInt64.toNat < n := by
  by_cases hlarge : 2 ^ 64 ≤ n
  · -- whatever the product is, its whole part has 64 bits
    exact Nat.lt_of_lt_of_le (UInt64.toNat_lt _) hlarge
  obtain ⟨m, e, hshare, hlow, hhigh, hbound⟩ := held_share hp hp'
  obtain ⟨m', e', hcount, hlow', hhigh', hbound'⟩ := held_ofNat hn (Nat.lt_of_not_le hlarge)
  obtain ⟨q, t, hrank, hproduct⟩ := hshare.mul hcount (by omega) (by omega)
  have hslack := slack_pos
  have hsmall : 99 / 100 * slack ^ 4 < 1 := by norm_num [slack]
  have hpos : (0 : ℚ) < n := Nat.cast_pos.mpr hn
  have hlt : ((Float.ofNat p / Float.ofNat 100 * Float.ofNat n).toUInt64.toNat : ℚ) < n := by
    calc _ ≤ dyadic q t := hrank.toNat_toUInt64_le
      _ ≤ dyadic m e * dyadic m' e' * slack := hproduct
      _ ≤ 99 / 100 * slack ^ 2 * (n * slack) * slack := by
        have hnonneg := dyadic_nonneg m' e'
        gcongr
      _ = 99 / 100 * slack ^ 4 * n := by ring
      _ < 1 * n := mul_lt_mul_of_pos_right hsmall hpos
      _ = n := one_mul _
  exact_mod_cast hlt

end

/-- Of any numbers there is every percentile between the first and the hundredth. -/
theorem isSome_percentile? {sorted : List Float} (hs : sorted ≠ []) {p : Nat} (hp : 0 < p)
    (hp' : p < 100) : (percentile? sorted (Quantity.ofNat p)).isSome := by
  have hlength := List.length_pos_of_ne_nil hs
  rw [percentile?, if_neg (by rw [List.isEmpty_iff]; exact hs)]
  apply isSome_interpolate?
  have hrank : percentileRank sorted.length (Quantity.ofNat p : Float) =
      Float.ofNat p / Float.ofNat 100 * Float.ofNat (sorted.length - 1) := rfl
  rw [hrank]
  rcases Nat.eq_zero_or_pos (sorted.length - 1) with hone | hmore
  · -- a single number has no other one above it
    obtain ⟨m, e, hshare, _⟩ := held_share hp hp'
    have hzero : Float.ofNat 0 = 0.0 := by decide +kernel
    have hceiling : rankCeiling (0.0 : Float) (Quantity.whole (0.0 : Float)) = 0 := by
      decide +kernel
    rw [hone, hzero, hshare.mul_zero, hceiling]
    exact hlength
  · exact rankCeiling_lt (whole_rank_lt hp hp' hmore)

end BenchMetrics
