import BenchMetrics.Proofs.Number.Whole

/-! Products of positive floats, and the whole part of a float. Both are bounded by the numbers
that the floats stand for, up to the slack of one rounding. -/
namespace BenchMetrics
open Float.Model Float.Model.UnpackedFloat

theorem toNat_ofNatClamp_le (n : Nat) : (UInt64.ofNatClamp n).toNat ≤ n := by
  rw [UInt64.ofNatClamp]
  split
  · exact le_rfl
  · rename_i hlarge
    exact Nat.le_of_pred_lt (Nat.lt_of_lt_of_le (by decide) (Nat.le_of_not_lt hlarge))

namespace Held
variable {x y : Float} {m m' : Nat} {e e' : Int}

/-- A product is positive again, if its exponent is nowhere near the ends of the range. -/
theorem mul (hx : Held x m e) (hy : Held y m' e') (hlow : -1000 ≤ e + e') (hhigh : e + e' ≤ 900) :
    ∃ q t, Held (x * y) q t ∧ dyadic q t ≤ dyadic m e * dyadic m' e' * slack := by
  have hmul : x * y = .ofModel (pack (UnpackedFloat.mul .binary64 x.toModel.unpack
    y.toModel.unpack)) := rfl
  have hproduct : UnpackedFloat.mul .binary64 (.finite .positive m e hx.full.pos)
      (.finite .positive m' e' hy.full.pos) =
        roundWithAccuracy .binary64 .positive (m * m') (e + e') .exact := rfl
  -- two mantissas of full length make one of nearly twice that length
  obtain ⟨k, hk, hk', hlog⟩ : ∃ k, 52 ≤ k ∧ k ≤ 53 ∧ (m * m').log2 = 52 + k := by
    have hlong : 2 ^ 104 ≤ m * m' := by
      calc 2 ^ 104 = 2 ^ 52 * 2 ^ 52 := rfl
        _ ≤ m * m' := Nat.mul_le_mul hx.full.le hy.full.le
    have hshort : m * m' < 2 ^ 106 := by
      calc m * m' < 2 ^ 53 * 2 ^ 53 := Nat.mul_lt_mul'' hx.full.lt hy.full.lt
        _ = 2 ^ 106 := rfl
    have hne : m * m' ≠ 0 := (Nat.mul_pos hx.full.pos hy.full.pos).ne'
    by_cases hq : m * m' < 2 ^ 105
    · exact ⟨52, le_rfl, by omega, (Nat.log2_eq_iff hne).mpr ⟨hlong, hq⟩⟩
    · exact ⟨53, by omega, le_rfl, (Nat.log2_eq_iff hne).mpr ⟨Nat.le_of_not_lt hq, hshort⟩⟩
  obtain ⟨q, j, hq, hj, hbound, hround⟩ := @roundWithAccuracy_of_log2 (m * m') k (e + e')
    .positive hlog (by omega) .exact
  refine ⟨q, e + e' + k + j, ⟨hq, by omega, by omega, ?_⟩, dyadic_mul m m' e e' ▸ hbound⟩
  rw [hmul, hx.unpack_toModel, hy.unpack_toModel, hproduct, hround]

theorem mul_zero (hx : Held x m e) : x * 0.0 = 0.0 := by
  have hmul : x * 0.0 = .ofModel (pack (UnpackedFloat.mul .binary64 x.toModel.unpack
    (.zero .positive))) := rfl
  rw [hmul, hx.unpack_toModel]
  rfl

/-- The whole part of a number is what is left of its mantissa in front of the point. -/
theorem toNat_toUInt64_le (hx : Held x m e) : (x.toUInt64.toNat : ℚ) ≤ dyadic m e := by
  have hwhole : x.toUInt64 = .ofNatClamp (m * 2 ^ e.toNat / 2 ^ (-e).toNat) := by
    have hcut : roundToInt .positive m e = (m * 2 ^ e.toNat / 2 ^ (-e).toNat : Nat) := by
      have hamount : (0 - (e - (e.toNat : Int))).toNat = (-e).toNat := by omega
      rw [roundToInt, decreaseExponent, Nat.shiftLeft_eq, sub_zero]
      simp only [shiftToExponent, hamount]
      exact congrArg Int.ofNat (mantissa_repeat _ _)
    show UInt64.ofNatClamp (x.toModel.unpack.toInt 0 (UInt64.size - 1)).toNat = _
    rw [hx.unpack_toModel]
    show UInt64.ofNatClamp (roundToInt .positive m e).toNat = _
    rw [hcut, Int.toNat_natCast]
  generalize ha : e.toNat = a at hwhole
  generalize hb : (-e).toNat = b at hwhole
  have hdivisor : dyadic (2 ^ b) (e - a) = 1 := by
    have hexponent : e - a + b = 0 := by omega
    rw [← one_mul (2 ^ b), ← dyadic_add, hexponent, dyadic, zpow_zero, mul_one, Nat.cast_one]
  have hcut := @dyadic_div_le m (2 ^ b) e (e - a) a
  have hexponent : e - (e - a) - a = (0 : Int) := by omega
  rw [hdivisor, div_one, hexponent, dyadic, zpow_zero, mul_one] at hcut
  rw [hwhole]
  exact (Nat.cast_le.mpr (toNat_ofNatClamp_le _)).trans hcut

end Held
end BenchMetrics
