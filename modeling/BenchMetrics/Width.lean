/-! Which integers fit into words of a fixed width, and what comes of a sum that does not. -/
namespace BenchMetrics

/-- What ends the program on the spot, with nothing to hand back. -/
inductive Panic where
  /-- A sum without sign that 64 bits do not hold. -/
  | overflow
  deriving DecidableEq, Repr

/-- A number as a word of 64 bits without sign. -/
def wordOf (n : Nat) : Except Panic UInt64 :=
  if n < UInt64.size then .ok (.ofNat n) else .error .overflow

/-- The sum of two words as one. -/
def addWords (a b : UInt64) : Except Panic UInt64 := wordOf (a.toNat + b.toNat)

/-- The integers of 64 bits with sign. -/
def fitsSigned (i : Int) : Bool := Int64.minValue.toInt ≤ i && i ≤ Int64.maxValue.toInt

/-- The integers without sign below a bound. -/
def fitsBelow (bound : Nat) (i : Int) : Bool := 0 ≤ i && i < bound

theorem wordOf_eq_ok_iff {n : Nat} {w : UInt64} : wordOf n = .ok w ↔ w.toNat = n := by
  have hlt : w.toNat < UInt64.size := w.toNat_lt
  rw [wordOf]
  split
  case isTrue h =>
    rw [Except.ok.injEq, ← UInt64.toNat_inj, UInt64.toNat_ofNat_of_lt' h, eq_comm]
  case isFalse h =>
    simp only [reduceCtorEq, false_iff]
    omega

theorem wordOf_eq_error_iff {n : Nat} {p : Panic} :
    wordOf n = .error p ↔ UInt64.size ≤ n := by
  cases p
  rw [wordOf]
  split
  case isTrue h => simp only [reduceCtorEq, false_iff, Nat.not_le, h]
  case isFalse h => simp only [Nat.not_lt.mp h]

theorem fitsSigned_iff {i : Int} :
    fitsSigned i = true ↔ -9223372036854775808 ≤ i ∧ i ≤ 9223372036854775807 := by
  have low : Int64.minValue.toInt = -9223372036854775808 := by decide
  have high : Int64.maxValue.toInt = 9223372036854775807 := by decide
  simp only [fitsSigned, low, high, Bool.and_eq_true, decide_eq_true_eq]

theorem toInt_ofInt_of_fitsSigned {i : Int} (h : fitsSigned i = true) :
    (Int64.ofInt i).toInt = i := by
  have hi := fitsSigned_iff.1 h
  apply Int64.toInt_ofInt_of_le <;> omega

theorem fitsSigned_toInt (a : Int64) : fitsSigned a.toInt = true := by
  have low := a.le_toInt
  have high := a.toInt_lt
  rw [fitsSigned_iff]
  omega

end BenchMetrics
