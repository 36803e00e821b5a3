/-! A float as a sign, a whole number and a power of two, read off its bits. -/
namespace BenchMetrics.Decimal

/-- `significand * 2 ^ exponent`, with its sign. -/
structure Binary where
  negative : Bool
  significand : Nat
  exponent : Int
  deriving DecidableEq, Repr

/-- The exponent of the smallest floats. -/
def leastExponent : Int := -1074

/-- `2 ^ 52`: the bit that stands before the fraction of all but the smallest floats. -/
def hiddenBit : Nat := 0x10000000000000

inductive Reading where
  | nan
  | infinite (negative : Bool)
  | finite (value : Binary)
  deriving DecidableEq, Repr

def Reading.ofBits (bits : UInt64) : Reading :=
  let n := bits.toNat
  let negative := n / 0x8000000000000000 == 1
  let field := n / hiddenBit % 2048
  let fraction := n % hiddenBit
  if field == 2047 then if fraction == 0 then .infinite negative else .nan
  else if field == 0 then .finite ⟨negative, fraction, leastExponent⟩
  else .finite ⟨negative, hiddenBit + fraction, leastExponent + (field - 1 : Nat)⟩

def Reading.ofFloat (x : Float) : Reading := ofBits x.toBits

/-- The quotient to the nearest whole number, a tie to the even one. -/
def roundDiv (num den : Nat) : Nat :=
  let q := num / den
  let r := num % den
  if 2 * r < den then q else if den < 2 * r then q + 1 else q + q % 2

/-- A fraction without sign as numerator and denominator. -/
def Binary.ratio (b : Binary) : Nat × Nat :=
  if 0 ≤ b.exponent then (b.significand * Nat.pow 2 b.exponent.natAbs, 1)
  else (b.significand, Nat.pow 2 b.exponent.natAbs)

end BenchMetrics.Decimal
