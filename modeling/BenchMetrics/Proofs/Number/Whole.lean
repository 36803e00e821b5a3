import BenchMetrics.Metric.Accumulator
import Mathlib

/-! Whole numbers as floats. Up to the size of a mantissa they are held exactly and counted up
exactly; a positive number, however large, stays positive when it is rounded. -/
namespace BenchMetrics
open Float.Model Float.Model.UnpackedFloat

theorem log2_mul_two_pow {n : Nat} (hn : n ≠ 0) (k : Nat) : (n * 2 ^ k).log2 = n.log2 + k := by
  induction k with
  | zero => rw [Nat.pow_zero, Nat.mul_one, Nat.add_zero]
  | succ k ih =>
    have hdouble : n * 2 ^ (k + 1) = 2 * (n * 2 ^ k) := by rw [Nat.pow_succ]; ring
    have hne : n * 2 ^ k ≠ 0 := Nat.mul_ne_zero hn (Nat.two_pow_pos k).ne'
    rw [hdouble, Nat.log2_two_mul hne, ih, Nat.add_assoc]

/-- A mantissa of full length. -/
structure FullMantissa (m : Nat) : Prop where
  le : 2 ^ 52 ≤ m
  lt : m < 2 ^ 53

namespace FullMantissa
variable {m k : Nat} {e : Int}

theorem pos (h : FullMantissa m) : 0 < m := Nat.lt_of_lt_of_le (by decide) h.le

theorem log2_eq (h : FullMantissa m) : m.log2 = 52 :=
  (Nat.log2_eq_iff h.pos.ne').mpr ⟨h.le, h.lt⟩

/-- Shifted so that its leading bit is the bit 52, a positive number is a mantissa of full
length. -/
theorem of_log2 (h : m.log2 = 52 + k) : FullMantissa (m / 2 ^ k) := by
  have hm : m ≠ 0 := by
    intro h0
    rw [h0, Nat.log2_zero] at h
    omega
  obtain ⟨hle, hlt⟩ := (Nat.log2_eq_iff hm).mp h
  have hpow : 0 < 2 ^ k := Nat.two_pow_pos k
  refine ⟨?_, ?_⟩
  · rw [Nat.le_div_iff_mul_le hpow, ← Nat.pow_add]
    exact hle
  · rw [Nat.div_lt_iff_lt_mul hpow, ← Nat.pow_add, show 53 + k = 52 + k + 1 by omega]
    exact hlt

end FullMantissa

/-! ### Values -/

section
variable {m m' j k : Nat} {e e' : Int}

/-- The number that a mantissa and an exponent stand for. -/
def dyadic (m : Nat) (e : Int) : ℚ := m * 2 ^ e

/-- A number that is rounded up to a mantissa grows by less than this factor. -/
def slack : ℚ := 1 + 1 / 2 ^ 52

theorem one_le_slack : 1 ≤ slack := by norm_num [slack]

theorem slack_pos : 0 < slack := one_pos.trans_le one_le_slack

theorem dyadic_nonneg (m : Nat) (e : Int) : 0 ≤ dyadic m e :=
  mul_nonneg m.cast_nonneg (zpow_nonneg zero_le_two e)

theorem dyadic_add (m : Nat) (e : Int) (k : Nat) : dyadic m (e + k) = dyadic (m * 2 ^ k) e := by
  rw [dyadic, dyadic, zpow_add₀ two_ne_zero, zpow_natCast]
  push_cast
  ring

theorem dyadic_mul (m m' : Nat) (e e' : Int) :
    dyadic (m * m') (e + e') = dyadic m e * dyadic m' e' := by
  rw [dyadic, dyadic, dyadic, zpow_add₀ two_ne_zero]
  push_cast
  ring

/-- A quotient that is cut off is no larger than the quotient. -/
theorem dyadic_div_le (k : Nat) :
    dyadic (m * 2 ^ k / m') (e - e' - k) ≤ dyadic m e / dyadic m' e' := by
  have hcut : ((m * 2 ^ k / m' : Nat) : ℚ) ≤ (m * 2 ^ k : Nat) / (m' : ℚ) := Nat.cast_div_le
  have hexact : ((m * 2 ^ k : Nat) / m' : ℚ) * 2 ^ (e - e' - k) = dyadic m e / dyadic m' e' := by
    rw [dyadic, dyadic, zpow_sub₀ two_ne_zero, zpow_sub₀ two_ne_zero, zpow_natCast, mul_div_mul_comm]
    push_cast
    field_simp
  rw [← hexact]
  exact mul_le_mul_of_nonneg_right hcut (zpow_nonneg zero_le_two _)

/-- What is cut off behind the leading bits is less than one of the last of them. -/
theorem dyadic_rounded_le (h : m.log2 = 52 + k) (hup : m' * 2 ^ j ≤ m / 2 ^ k + 1) :
    dyadic m' (e + k + j) ≤ dyadic m e * slack := by
  have hm : m ≠ 0 := by
    rintro rfl
    rw [Nat.log2_zero] at h
    omega
  have hlong : 2 ^ 52 * 2 ^ k ≤ m := by
    rw [← Nat.pow_add]
    exact ((Nat.log2_eq_iff hm).mp h).1
  have hnat : m' * 2 ^ j * 2 ^ k ≤ m + 2 ^ k := by
    calc m' * 2 ^ j * 2 ^ k ≤ (m / 2 ^ k + 1) * 2 ^ k := Nat.mul_le_mul_right _ hup
      _ = m / 2 ^ k * 2 ^ k + 2 ^ k := by rw [Nat.add_mul, Nat.one_mul]
      _ ≤ m + 2 ^ k := Nat.add_le_add_right (Nat.div_mul_le_self _ _) _
  have hgrown : ((m' * 2 ^ j * 2 ^ k : Nat) : ℚ) ≤ m * slack := by
    have hnat' : ((m' * 2 ^ j * 2 ^ k : Nat) : ℚ) ≤ (m + 2 ^ k : Nat) := Nat.cast_le.mpr hnat
    have hlong' : ((2 ^ 52 * 2 ^ k : Nat) : ℚ) ≤ m := Nat.cast_le.mpr hlong
    rw [slack]
    push_cast at hnat' hlong' ⊢
    linarith
  calc dyadic m' (e + k + j) = (m' * 2 ^ j * 2 ^ k : Nat) * 2 ^ e := by
        rw [dyadic_add, dyadic_add, dyadic]
    _ ≤ m * slack * 2 ^ e := mul_le_mul_of_nonneg_right hgrown (zpow_nonneg zero_le_two e)
    _ = dyadic m e * slack := by rw [dyadic, mul_right_comm]

end

/-! ### Rounding -/

section
variable {m k : Nat} {e : Int} {s : Sign}

theorem targetExponent_binary64 (t : Int) :
    Format.binary64.targetExponent t = max (t - 53) (-1074) := rfl

theorem targetExponent_of_log2 (h : m.log2 = 52 + k) (he : -1074 ≤ e + k) :
    Format.binary64.targetExponent (totalExponent m e) = e + k := by
  rw [targetExponent_binary64, totalExponent, h]
  omega

theorem shiftToTargetExponent_of_log2 (h : m.log2 = 52 + k) (he : -1074 ≤ e + k)
    (accuracy : Accuracy) : shiftToTargetExponent .binary64 m e accuracy =
      (Nat.repeat ExtendedMantissa.shiftRightOne k (.ofMantissaAndAccuracy m accuracy),
        e + k) := by
  have hamount : (e + k - e).toNat = k := by omega
  rw [shiftToTargetExponent, targetExponent_of_log2 h he, shiftToExponent, hamount]
  rfl

theorem mantissa_repeat (em : ExtendedMantissa) (k : Nat) :
    (Nat.repeat ExtendedMantissa.shiftRightOne k em).mantissa = em.mantissa / 2 ^ k := by
  induction k with
  | zero => simp [Nat.repeat]
  | succ k ih =>
    rw [Nat.repeat, ExtendedMantissa.shiftRightOne, ih, Nat.div_div_eq_div_mul, ← Nat.pow_succ]

theorem mantissa_ofMantissaAndAccuracy (m : Nat) (accuracy : Accuracy) :
    (ExtendedMantissa.ofMantissaAndAccuracy m accuracy).mantissa = m := by
  cases accuracy with
  | exact => rfl
  | inexact o => cases o <;> rfl

/-- Zeros that are shifted out leave no trace. -/
theorem repeat_mul (m k : Nat) :
    Nat.repeat ExtendedMantissa.shiftRightOne k ⟨m * 2 ^ k, false, false⟩ = ⟨m, false, false⟩ := by
  induction k generalizing m with
  | zero => simp [Nat.repeat]
  | succ k ih =>
    have hdouble : m * 2 ^ (k + 1) = 2 * m * 2 ^ k := by
      rw [Nat.pow_succ, Nat.mul_comm (2 ^ k), ← Nat.mul_assoc, Nat.mul_comm m]
    rw [Nat.repeat, hdouble, ih, ExtendedMantissa.shiftRightOne]
    simp

theorem roundedMantissa_cases (em : ExtendedMantissa) :
    em.roundedMantissa = em.mantissa ∨ em.roundedMantissa = em.mantissa + 1 := by
  obtain ⟨m, roundBit, stickyBit⟩ := em
  cases roundBit <;> cases stickyBit
  · exact Or.inl rfl
  · exact Or.inl rfl
  · -- halfway: to the even one of the two
    show m + m % 2 = m ∨ m + m % 2 = m + 1
    omega
  · exact Or.inr rfl

/-- A number that is held exactly is rounded to itself. -/
theorem roundWithAccuracy_exact (hm : FullMantissa m) (he : -1074 ≤ e + k) :
    roundWithAccuracy .binary64 s (m * 2 ^ k) e .exact = .finite s m (e + k) hm.pos := by
  have hlog : (m * 2 ^ k).log2 = 52 + k := by rw [log2_mul_two_pow hm.pos.ne', hm.log2_eq]
  have hexact : ∀ n, ExtendedMantissa.ofMantissaAndAccuracy n .exact = ⟨n, false, false⟩ :=
    fun _ => rfl
  -- the first shift takes the zeros out, and the second has nothing left to do
  have hfirst := shiftToTargetExponent_of_log2 hlog he .exact
  have hsecond : shiftToTargetExponent .binary64 m (e + k) .exact = (⟨m, false, false⟩, e + k) := by
    have h := @shiftToTargetExponent_of_log2 m 0 (e + k) hm.log2_eq (by omega) .exact
    rw [Int.natCast_zero, Int.add_zero] at h
    exact h
  rw [roundWithAccuracy, hfirst, hexact, repeat_mul]
  have hround : ExtendedMantissa.roundedMantissa ⟨m, false, false⟩ = m := rfl
  simp only [hround, hsecond]
  rw [dif_neg hm.pos.ne']

/-- Rounding a number to the length of a mantissa can carry into one bit more, which is shifted
out again. -/
theorem roundWithAccuracy_of_log2 (h : m.log2 = 52 + k) (he : -1074 ≤ e + k)
    (accuracy : Accuracy) : ∃ (m' j : Nat) (hm : FullMantissa m'), j ≤ 1 ∧
      dyadic m' (e + k + j) ≤ dyadic m e * slack ∧
      roundWithAccuracy .binary64 s m e accuracy = .finite s m' (e + k + j) hm.pos := by
  have hfirst := shiftToTargetExponent_of_log2 h he accuracy
  have hfull := FullMantissa.of_log2 h
  have hrounded := roundedMantissa_cases
    (Nat.repeat ExtendedMantissa.shiftRightOne k (.ofMantissaAndAccuracy m accuracy))
  rw [mantissa_repeat, mantissa_ofMantissaAndAccuracy] at hrounded
  rw [roundWithAccuracy, hfirst]
  dsimp only
  -- what is rounded up is full again, or the first number that is one bit longer
  generalize ExtendedMantissa.roundedMantissa _ = r at hrounded ⊢
  obtain ⟨j, hj, hlog⟩ : ∃ j ≤ 1, r.log2 = 52 + j := by
    have hle := hfull.le
    have hlt := hfull.lt
    by_cases hr : r < 2 ^ 53
    · exact ⟨0, by omega, FullMantissa.log2_eq ⟨by omega, hr⟩⟩
    · have hcarry : r = 2 ^ 53 := by omega
      exact ⟨1, le_rfl, by rw [hcarry, Nat.log2_two_pow]⟩
  have hfinal := FullMantissa.of_log2 hlog
  have hsecond := @shiftToTargetExponent_of_log2 r j (e + k) hlog (by omega) .exact
  have hup : r / 2 ^ j * 2 ^ j ≤ m / 2 ^ k + 1 := by
    have hcut := Nat.div_mul_le_self r (2 ^ j)
    omega
  refine ⟨r / 2 ^ j, j, hfinal, hj, dyadic_rounded_le h hup, ?_⟩
  simp only [hsecond, mantissa_repeat, mantissa_ofMantissaAndAccuracy]
  rw [dif_neg hfinal.pos.ne']

end

/-! ### Packing -/

section
variable {m : Nat} {e : Int} {s : Sign}

/-- A full mantissa is stored without its leading bit, which comes back. -/
theorem FullMantissa.toNat_append (h : FullMantissa m) : (1#1 ++ BitVec.ofNat 52 m).toNat = m := by
  have hle := h.le
  have hlt := h.lt
  have hshift : (1#1).toNat <<< 52 = 2 ^ 52 := rfl
  rw [BitVec.toNat_append, ← Nat.shiftLeft_add_eq_or_of_lt (BitVec.isLt _), hshift,
    BitVec.toNat_ofNat]
  omega

/-- A number with a full mantissa and an exponent that is in range is stored as it is. -/
theorem unpack_pack (hm : FullMantissa m) (hlow : -1074 ≤ e) (hhigh : e ≤ 971) :
    (pack (.finite s m e hm.pos)).unpack = .finite s m e hm.pos := by
  obtain ⟨b, hb, hpos, hlt⟩ : ∃ b : Nat, (e + 1075).toNat = b ∧ 0 < b ∧ b < 2047 :=
    ⟨_, rfl, by omega, by omega⟩
  have hbiased : (e + (1023 : Nat) + (52 : Nat)).toNat = b := by omega
  have hpacked : UnpackedFloat.pack .binary64 (.finite s m e hm.pos) =
      packComponents .binary64 s (BitVec.ofNat 11 b) (BitVec.ofNat 52 m) := by
    have hfits : ¬ 2 ^ 11 ≤ b + 1 := by omega
    have hlength : m.log2 + 1 = Format.binary64.mantissaBits := by rw [hm.log2_eq]; rfl
    have hbias : Format.binary64.exponentBias = 1023 := rfl
    simp only [UnpackedFloat.pack, hbias, hbiased]
    rw [if_neg hfits, if_pos hlength]
  have hexponent : (BitVec.ofNat 11 b).toNat = b := by
    rw [BitVec.toNat_ofNat]
    omega
  -- neither of the exponents that stand for something else
  have hnotMax : BitVec.ofNat 11 b ≠ -1#11 := by
    intro h
    have hmax := congrArg BitVec.toNat h
    rw [hexponent, show (-1#11 : BitVec 11).toNat = 2047 from rfl] at hmax
    omega
  have hnotZero : BitVec.ofNat 11 b ≠ 0#11 := by
    intro h
    have hzero := congrArg BitVec.toNat h
    rw [hexponent, BitVec.toNat_zero] at hzero
    omega
  rw [Float.Model.unpack, Float.Model.pack]
  show UnpackedFloat.unpack .binary64 (UnpackedFloat.pack .binary64 _) = _
  rw [hpacked]
  unfold UnpackedFloat.unpack
  simp only [unpackMantissa_packComponents, unpackExponent_packComponents,
    unpackSign_packComponents, Sign.ofBitVec_toBitVec]
  rw [if_neg hnotMax, if_neg hnotZero]
  have hback : ((BitVec.ofNat 11 b).toNat : Int) -
      (Format.binary64.exponentBias + Format.binary64.mantissaBitsWithoutImplicit) = e := by
    have hbias : Format.binary64.exponentBias = 1023 := rfl
    have hwidth : Format.binary64.mantissaBitsWithoutImplicit = 52 := rfl
    rw [hexponent, hbias, hwidth]
    omega
  simp only [hback]
  congr 1
  exact hm.toNat_append

end

/-! ### Whole numbers -/

section
variable {n : Nat}

/-- The mantissa of a whole number that is no longer than a mantissa. -/
def wholeMantissa (n : Nat) : Nat := n * 2 ^ (52 - n.log2)

theorem fullMantissa_whole (hpos : 0 < n) (hn : n < 2 ^ 53) : FullMantissa (wholeMantissa n) := by
  have hlog : n.log2 < 53 := (Nat.log2_lt hpos.ne').mpr hn
  obtain ⟨hle, hlt⟩ := (Nat.log2_eq_iff hpos.ne').mp (rfl : n.log2 = n.log2)
  have hpow : 0 < 2 ^ (52 - n.log2) := Nat.two_pow_pos _
  refine ⟨?_, ?_⟩
  · calc 2 ^ 52 = 2 ^ n.log2 * 2 ^ (52 - n.log2) := by rw [← Nat.pow_add]; congr 1; omega
      _ ≤ n * 2 ^ (52 - n.log2) := Nat.mul_le_mul_right _ hle
  · calc n * 2 ^ (52 - n.log2) < 2 ^ (n.log2 + 1) * 2 ^ (52 - n.log2) :=
          Nat.mul_lt_mul_of_pos_right hlt hpow
      _ = 2 ^ 53 := by rw [← Nat.pow_add]; congr 1; omega

/-- A whole number as it is held. -/
def whole (hpos : 0 < n) (hn : n < 2 ^ 53) : UnpackedFloat :=
  .finite .positive (wholeMantissa n) (n.log2 - 52) (fullMantissa_whole hpos hn).pos

/-- However many zeros a whole number has been given, it is rounded to itself. -/
theorem roundWithAccuracy_whole (hpos : 0 < n) (hn : n < 2 ^ 53) {k : Nat}
    (hk : 52 ≤ n.log2 + k) {e : Int} (he : e = -k) :
    roundWithAccuracy .binary64 .positive (n * 2 ^ k) e .exact = whole hpos hn := by
  have hlog : n.log2 < 53 := (Nat.log2_lt hpos.ne').mpr hn
  have hzeros : n * 2 ^ k = wholeMantissa n * 2 ^ (n.log2 + k - 52) := by
    rw [wholeMantissa, Nat.mul_assoc, ← Nat.pow_add]
    congr 2
    omega
  have hexponent : e + (n.log2 + k - 52 : Nat) = n.log2 - 52 := by omega
  rw [hzeros, roundWithAccuracy_exact (fullMantissa_whole hpos hn) (by omega), whole]
  simp only [hexponent]

theorem unpack_pack_whole (hpos : 0 < n) (hn : n < 2 ^ 53) :
    (pack (whole hpos hn)).unpack = whole hpos hn := by
  have hlog : n.log2 < 53 := (Nat.log2_lt hpos.ne').mpr hn
  exact unpack_pack (fullMantissa_whole hpos hn) (by omega) (by omega)

theorem normalize_whole (hpos : 0 < n) (hn : n < 2 ^ 53) (k : Nat) :
    UnpackedFloat.normalize .binary64 (n * 2 ^ k : Nat) (-k) .positive = whole hpos hn := by
  have hlog : n.log2 < 53 := (Nat.log2_lt hpos.ne').mpr hn
  have hpow : 0 < n * 2 ^ k := Nat.mul_pos hpos (Nat.two_pow_pos k)
  have hcompare : compare ((n * 2 ^ k : Nat) : Int) 0 = .gt := by
    rw [Int.compare_eq_gt]
    omega
  have htarget : Format.binary64.targetExponent (totalExponent (n * 2 ^ k) (-k)) =
      n.log2 - 52 := by
    rw [targetExponent_binary64, totalExponent, log2_mul_two_pow hpos.ne']
    omega
  -- zeros are added until the mantissa is full
  obtain ⟨j, hj⟩ : ∃ j, (-(k : Int) - ((n.log2 : Int) - 52)).toNat = j := ⟨_, rfl⟩
  rw [UnpackedFloat.normalize, hcompare]
  dsimp only
  rw [UnpackedFloat.round, Int.toNat_natCast, htarget, decreaseExponent, hj, Nat.shiftLeft_eq,
    Nat.mul_assoc, ← Nat.pow_add]
  exact roundWithAccuracy_whole hpos hn (by omega) (by omega)

/-- The number one. -/
def unit : UnpackedFloat := @whole 1 Nat.one_pos (by decide)

theorem one_eq : (1.0 : Float) = .ofModel (pack unit) := by
  decide +kernel

theorem unpack_pack_unit : (pack unit).unpack = unit := unpack_pack_whole Nat.one_pos (by decide)

theorem mul_unit (hpos : 0 < n) (hn : n < 2 ^ 53) :
    UnpackedFloat.mul .binary64 (whole hpos hn) unit = whole hpos hn := by
  have hlog : n.log2 < 53 := (Nat.log2_lt hpos.ne').mpr hn
  have hzeros : wholeMantissa n * wholeMantissa 1 = n * 2 ^ (104 - n.log2) := by
    have hone : wholeMantissa 1 = 2 ^ 52 := by decide
    rw [hone, wholeMantissa, Nat.mul_assoc, ← Nat.pow_add]
    congr 2
    omega
  have hmul : UnpackedFloat.mul .binary64 (whole hpos hn) unit =
      roundWithAccuracy .binary64 .positive (wholeMantissa n * wholeMantissa 1)
        (n.log2 - 52 + -52) .exact := rfl
  rw [hmul, hzeros]
  exact roundWithAccuracy_whole hpos hn (by omega) (by omega)

theorem add_unit (hpos : 0 < n) (hn : n + 1 < 2 ^ 53) :
    UnpackedFloat.add .binary64 (whole hpos (Nat.lt_of_succ_lt hn)) unit =
      whole (Nat.succ_pos n) hn := by
  have hlog : n.log2 < 53 := (Nat.log2_lt hpos.ne').mpr (Nat.lt_of_succ_lt hn)
  have hmin : min ((n.log2 : Int) - 52) (-52) = -52 := by omega
  -- both are brought to the exponent of the unit
  have hleft : (decreaseExponent (wholeMantissa n) (n.log2 - 52) (-52)).1 = n * 2 ^ 52 := by
    have hamount : ((n.log2 : Int) - 52 - -52).toNat = n.log2 := by omega
    have hlength : 52 - n.log2 + n.log2 = 52 := by omega
    rw [decreaseExponent, hamount, Nat.shiftLeft_eq, wholeMantissa, Nat.mul_assoc, ← Nat.pow_add,
      hlength]
  have hright : (decreaseExponent (wholeMantissa 1) (-52) (-52)).1 = 2 ^ 52 := by decide
  have hsum : ((n * 2 ^ 52 : Nat) : Int) + (2 ^ 52 : Nat) = ((n + 1) * 2 ^ 52 : Nat) := by
    push_cast
    ring
  have hadd : UnpackedFloat.add .binary64 (whole hpos (Nat.lt_of_succ_lt hn)) unit =
      UnpackedFloat.normalize .binary64 ((decreaseExponent (wholeMantissa n) (n.log2 - 52)
          (min ((n.log2 : Int) - 52) (-52))).1 +
        (decreaseExponent (wholeMantissa 1) (-52) (min ((n.log2 : Int) - 52) (-52))).1)
          (min ((n.log2 : Int) - 52) (-52)) .positive := rfl
  rw [hadd, hmin, hleft, hright, hsum]
  exact normalize_whole (Nat.succ_pos n) hn 52

theorem ofNat_eq (hpos : 0 < n) (hn : n < 2 ^ 53) :
    Float.ofNat n = .ofModel (pack (whole hpos hn)) := by
  have hconvert : n.toUInt64.toFloat = .ofModel (pack (whole hpos hn)) := by
    have hsize : n.toUInt64.toNat = n := by
      rw [Nat.toUInt64, UInt64.toNat_ofNat']
      omega
    have hnormal := normalize_whole hpos hn 0
    rw [Nat.pow_zero, Nat.mul_one] at hnormal
    rw [UInt64.toFloat, Float.Model.ofUInt64, UnpackedFloat.ofUInt64, hsize, UnpackedFloat.ofNat,
      UnpackedFloat.ofInt]
    exact congrArg (fun u => Float.ofModel (pack u)) hnormal
  have hfirst : Float.exactlyRepresentablePowersOfTen[0]? = some 1.0 := by decide +kernel
  obtain ⟨_, hten⟩ := Array.getElem?_eq_some_iff.mp hfirst
  have hmul : Float.ofModel (pack (whole hpos hn)) * .ofModel (pack unit) =
      .ofModel (pack (UnpackedFloat.mul .binary64 (pack (whole hpos hn)).unpack
        (pack unit).unpack)) := rfl
  show Float.ofScientific n false 0 = _
  rw [Float.ofScientific, dif_pos ⟨hn, by decide⟩]
  simp only [hten]
  show n.toUInt64.toFloat * 1.0 = _
  rw [hconvert, one_eq, hmul, unpack_pack_whole, unpack_pack_unit, mul_unit]

theorem ofNat_add_one (hpos : 0 < n) (hn : n + 1 < 2 ^ 53) :
    Float.ofNat n + 1.0 = Float.ofNat (n + 1) := by
  have hadd : Float.ofModel (pack (whole hpos (Nat.lt_of_succ_lt hn))) + .ofModel (pack unit) =
      .ofModel (pack (UnpackedFloat.add .binary64
        (pack (whole hpos (Nat.lt_of_succ_lt hn))).unpack (pack unit).unpack)) := rfl
  rw [ofNat_eq hpos (Nat.lt_of_succ_lt hn), ofNat_eq (Nat.succ_pos n) hn, one_eq, hadd,
    unpack_pack_whole, unpack_pack_unit, add_unit hpos hn]

/-- Counting up by one stops at the first number that a mantissa does not hold. -/
theorem ofNat_min_add_one (hpos : 0 < n) :
    Float.ofNat (min n (2 ^ 53)) + 1.0 = Float.ofNat (min (n + 1) (2 ^ 53)) := by
  rcases Nat.lt_trichotomy (n + 1) (2 ^ 53) with hn | hn | hn
  · rw [Nat.min_eq_left (by omega), Nat.min_eq_left (by omega)]
    exact ofNat_add_one hpos hn
  · have hlast : n = 2 ^ 53 - 1 := by omega
    rw [hlast]
    decide +kernel
  · rw [Nat.min_eq_right (by omega), Nat.min_eq_right (by omega)]
    decide +kernel

/-! ### Positive numbers -/

/-- A positive float that is held with a full mantissa. -/
structure Held (x : Float) (m : Nat) (e : Int) : Prop where
  full : FullMantissa m
  low : -1074 ≤ e
  high : e ≤ 971
  eq : x = .ofModel (pack (.finite .positive m e full.pos))

namespace Held
variable {x y : Float} {m m' : Nat} {e e' : Int}

theorem unpack_toModel (h : Held x m e) :
    x.toModel.unpack = .finite .positive m e h.full.pos := by
  have hheld : x.toModel.unpack = (pack (.finite .positive m e h.full.pos)).unpack :=
    congrArg (fun y : Float => y.toModel.unpack) h.eq
  rw [hheld]
  exact unpack_pack h.full h.low h.high

theorem zero_lt (h : Held x m e) : 0.0 < x := by
  have hzero : (0.0 : Float).toModel.unpack = .zero .positive := rfl
  have hcompare : (0.0 : Float).toModel.unpack.lt x.toModel.unpack = true := by
    rw [hzero, h.unpack_toModel]
    rfl
  exact decide_eq_true hcompare

theorem not_le_zero (h : Held x m e) : ¬ x ≤ 0.0 := by
  have hzero : (0.0 : Float).toModel.unpack = .zero .positive := rfl
  have hcompare : ¬ x.toModel.unpack.le (0.0 : Float).toModel.unpack = true := by
    rw [hzero, h.unpack_toModel]
    exact Bool.false_ne_true
  exact fun hle => hcompare (of_decide_eq_true hle)

/-- A quotient is positive again, if its exponent is nowhere near the ends of the range. -/
theorem div (hx : Held x m e) (hy : Held y m' e') (hlow : -1000 ≤ e - e')
    (hhigh : e - e' ≤ 1000) : ∃ q t, Held (x / y) q t ∧ e - e' - 53 ≤ t ∧ t ≤ e - e' - 51 ∧
      dyadic q t ≤ dyadic m e / dyadic m' e' * slack := by
  have hdiv : x / y = .ofModel (pack (UnpackedFloat.div .binary64 x.toModel.unpack
    y.toModel.unpack)) := rfl
  have hle := hx.full.le
  have hlt := hx.full.lt
  have hle' := hy.full.le
  have hlt' := hy.full.lt
  -- the dividend is given as many zeros as make the quotient long enough
  have htarget : min (e - e') (Format.binary64.targetExponent
      (totalExponent m e - totalExponent m' e')) = e - e' - 53 := by
    rw [targetExponent_binary64, totalExponent, totalExponent, hx.full.log2_eq, hy.full.log2_eq]
    omega
  have hamount : (e - e' - (e - e' - 53)).toNat = 53 := by omega
  have hquotient : UnpackedFloat.div .binary64 (.finite .positive m e hx.full.pos)
      (.finite .positive m' e' hy.full.pos) = roundWithAccuracy .binary64 .positive
        (m * 2 ^ 53 / m') (e - e' - 53) (accuracyOfFraction (m * 2 ^ 53 % m') m') := by
    rw [UnpackedFloat.div, divCore, htarget, hamount, Nat.shiftLeft_eq]
    rfl
  obtain ⟨k, hk, hlog⟩ : ∃ k ≤ 1, (m * 2 ^ 53 / m').log2 = 52 + k := by
    have hlong : 2 ^ 52 ≤ m * 2 ^ 53 / m' := by
      rw [Nat.le_div_iff_mul_le hy.full.pos]
      exact Nat.mul_le_mul hle hlt'.le
    have hshort : m * 2 ^ 53 / m' < 2 ^ 54 := by
      rw [Nat.div_lt_iff_lt_mul hy.full.pos]
      omega
    have hne : m * 2 ^ 53 / m' ≠ 0 := by omega
    by_cases hq : m * 2 ^ 53 / m' < 2 ^ 53
    · exact ⟨0, by omega, (Nat.log2_eq_iff hne).mpr ⟨hlong, hq⟩⟩
    · exact ⟨1, le_rfl, (Nat.log2_eq_iff hne).mpr ⟨by omega, hshort⟩⟩
  obtain ⟨q, j, hq, hj, hbound, hround⟩ := @roundWithAccuracy_of_log2 (m * 2 ^ 53 / m') k
    (e - e' - 53) .positive hlog (by omega) (accuracyOfFraction (m * 2 ^ 53 % m') m')
  refine ⟨q, e - e' - 53 + k + j, ⟨hq, by omega, by omega, ?_⟩, by omega, by omega,
    hbound.trans ?_⟩
  · rw [hdiv, hx.unpack_toModel, hy.unpack_toModel, hquotient, hround]
  · exact mul_le_mul_of_nonneg_right (dyadic_div_le 53) slack_pos.le

end Held

/-- A number that is longer than a mantissa goes through the rounding of a product. -/
theorem ofNat_large (hn : 2 ^ 53 ≤ n) : Float.ofNat n =
    .ofModel (pack (roundWithAccuracy .binary64 .positive (n * 2 ^ 53) (-53) .exact)) := by
  have hpos : n ≠ 0 := by omega
  show Float.ofScientific n false 0 = _
  rw [Float.ofScientific, dif_neg (by omega)]
  show Float.ofModel (pack (UnpackedFloat.ofScientific .binary64 n 0)) = _
  have hlow : ¬ (0 : Int) < -((2 ^ Format.binary64.exponentBits : Int) + n.log2) := by
    have hexponents : (2 ^ Format.binary64.exponentBits : Int) = 2048 := rfl
    omega
  have hproduct : (n <<< 53) * 10 ^ (0 : Int).toNat = n * 2 ^ 53 := by
    rw [Nat.shiftLeft_eq, Int.toNat_zero, Nat.pow_zero, Nat.mul_one]
  rw [UnpackedFloat.ofScientific, dif_neg hpos, if_neg (by decide), if_neg hlow,
    if_pos (by decide), ← hproduct]
  rfl

theorem dyadic_wholeMantissa (hpos : 0 < n) (hn : n < 2 ^ 53) :
    dyadic (wholeMantissa n) (n.log2 - 52) = n := by
  have hlog : n.log2 < 53 := (Nat.log2_lt hpos.ne').mpr hn
  have hexponent : (n.log2 : Int) - 52 + (52 - n.log2 : Nat) = 0 := by omega
  rw [wholeMantissa, ← dyadic_add, hexponent, dyadic, zpow_zero, mul_one]

/-- A positive number of 64 bits is rounded to a positive float. -/
theorem held_ofNat (hpos : 0 < n) (hn : n < 2 ^ 64) :
    ∃ m e, Held (Float.ofNat n) m e ∧ -52 ≤ e ∧ e ≤ 12 ∧ dyadic m e ≤ n * slack := by
  have hshort : n.log2 < 64 := (Nat.log2_lt hpos.ne').mpr hn
  by_cases hsmall : n < 2 ^ 53
  · have hlog : n.log2 < 53 := (Nat.log2_lt hpos.ne').mpr hsmall
    refine ⟨wholeMantissa n, n.log2 - 52, ⟨fullMantissa_whole hpos hsmall, by omega, by omega,
      ofNat_eq hpos hsmall⟩, by omega, by omega, ?_⟩
    rw [dyadic_wholeMantissa hpos hsmall]
    exact le_mul_of_one_le_right n.cast_nonneg one_le_slack
  · have hlong : 53 ≤ n.log2 := (Nat.le_log2 hpos.ne').mpr (Nat.le_of_not_lt hsmall)
    have hlog : (n * 2 ^ 53).log2 = 52 + (n.log2 + 1) := by
      rw [log2_mul_two_pow hpos.ne']
      omega
    have hexact : dyadic (n * 2 ^ 53) (-53) = n := by
      rw [← dyadic_add, dyadic]
      norm_num
    obtain ⟨m, j, hm, hj, hbound, hround⟩ := @roundWithAccuracy_of_log2 (n * 2 ^ 53)
      (n.log2 + 1) (-53) .positive hlog (by omega) .exact
    refine ⟨m, -53 + (n.log2 + 1 : Nat) + j, ⟨hm, by omega, by omega, ?_⟩, by omega, by omega,
      hexact ▸ hbound⟩
    rw [ofNat_large (Nat.le_of_not_lt hsmall), hround]

end

/-! ### Durations -/

section
variable {ns : Int64}

theorem nanosToFloat_zero : nanosToFloat 0 = 0.0 := by
  decide +kernel

theorem held_nanosToFloat (h : 0 < ns) :
    ∃ m e, Held (nanosToFloat ns) m e ∧ -52 ≤ e ∧ e ≤ 12 := by
  have hpos : 0 < ns.toInt := Int64.lt_iff_toInt_lt.mp h
  have hlt : ns.toInt < 2 ^ 63 := ns.toInt_lt
  obtain ⟨n, hn⟩ := Int.eq_ofNat_of_zero_le hpos.le
  have hfloat : nanosToFloat ns = Float.ofNat n := by
    rw [nanosToFloat, hn]
    rfl
  obtain ⟨m, e, hheld, hlow, hhigh, _⟩ := held_ofNat (n := n) (by omega) (by omega)
  exact ⟨m, e, hfloat ▸ hheld, hlow, hhigh⟩

theorem held_nanosPerSecond : Held nanosPerSecond (10 ^ 9 * 2 ^ 23) (-23) where
  full := ⟨by decide, by decide⟩
  low := by decide
  high := by decide
  eq := by decide +kernel

theorem nanosToFloat_pos (h : 0 < ns) : 0.0 < nanosToFloat ns := by
  obtain ⟨m, e, hns, _⟩ := held_nanosToFloat h
  exact hns.zero_lt

theorem not_nanosToFloat_le_zero (h : 0 < ns) : ¬ nanosToFloat ns ≤ 0.0 := by
  obtain ⟨m, e, hns, _⟩ := held_nanosToFloat h
  exact hns.not_le_zero

/-- A duration is positive in seconds too: the quotient is not rounded to zero. -/
theorem seconds_pos (h : 0 < ns) : 0.0 < nanosToFloat ns / nanosPerSecond := by
  obtain ⟨m, e, hns, hlow, hhigh⟩ := held_nanosToFloat h
  obtain ⟨q, t, hquotient, _⟩ := hns.div held_nanosPerSecond (by omega) (by omega)
  exact hquotient.zero_lt

end
end BenchMetrics
