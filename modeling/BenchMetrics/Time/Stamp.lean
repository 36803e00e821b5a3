import BenchMetrics.Width
/-! Timestamps: nanoseconds of a monotonic clock in 64 bits. -/
namespace BenchMetrics

/-- A clock reading that can be measured from: neither zero or below, nor the largest number,
which stands for a missing one. -/
def inOpenRange (ns : Int64) : Bool := 0 < ns && ns < Int64.maxValue

/-- The difference, if 64 bits hold it. -/
def checkedSub (a b : Int64) : Option Int64 :=
  let d := a.toInt - b.toInt
  if fitsSigned d then some (Int64.ofInt d) else none

/-- The float nearest to a number of nanoseconds. -/
def nanosToFloat (ns : Int64) : Float := Float.ofInt ns.toInt

theorem inOpenRange_iff_lt {a : Int64} : inOpenRange a = true ↔ 0 < a ∧ a < Int64.maxValue := by
  rw [inOpenRange, Bool.and_eq_true, decide_eq_true_iff, decide_eq_true_iff]

theorem inOpenRange_iff {a : Int64} :
    inOpenRange a = true ↔ 0 < a.toInt ∧ a.toInt < 9223372036854775807 := by
  have high : Int64.maxValue.toInt = 9223372036854775807 := by decide
  simp only [inOpenRange, Bool.and_eq_true, decide_eq_true_eq, Int64.lt_iff_toInt_lt, high]
  exact Iff.rfl

/-- The difference of two positive numbers of 64 bits is one of 64 bits. -/
theorem toInt_sub_of_inOpenRange {a b : Int64} (ha : inOpenRange a) (hb : inOpenRange b) :
    (a - b).toInt = a.toInt - b.toInt := by
  have ha' := (inOpenRange_iff.mp ha).1
  have hb' := (inOpenRange_iff.mp hb).1
  have halt := a.toInt_lt
  have hblt := b.toInt_lt
  rw [Int64.toInt_sub]
  apply Int.bmod_eq_of_le <;> omega

theorem checkedSub_eq_some_iff {a b d : Int64} :
    checkedSub a b = some d ↔ d.toInt = a.toInt - b.toInt := by
  simp only [checkedSub]
  constructor
  · intro h
    split at h
    · rename_i hd
      obtain rfl := Option.some.inj h
      exact toInt_ofInt_of_fitsSigned hd
    · exact absurd h (by simp)
  · intro h
    rw [← h, if_pos (fitsSigned_toInt d), Int64.ofInt_toInt]

theorem toInt_checkedSub (a b : Int64) :
    (checkedSub a b).map Int64.toInt = (some (a.toInt - b.toInt)).filter fitsSigned := by
  simp only [checkedSub, Option.filter_some]
  split
  · rename_i hd
    rw [Option.map_some, toInt_ofInt_of_fitsSigned hd]
  · rfl

end BenchMetrics
