import BenchMetrics.Statistics.Quantity
/-! Percentiles by linear interpolation, and the profile of a list of sorted numbers. Sums are
taken in the sorted order as well, so a profile does not depend on how the numbers came. -/
namespace BenchMetrics

variable {α : Type} [Quantity α]

/-- Where the percentile `p` of `n` sorted numbers lies among them, counted from zero. -/
def percentileRank (n : Nat) (p : α) : α :=
  p / Quantity.ofNat 100 * Quantity.ofNat (n - 1)

/-- The whole number at or above a rank whose whole part is `lower`. -/
def rankCeiling (rank : α) (lower : Nat) : Nat :=
  if Quantity.less (Quantity.ofNat lower) rank then lower + 1 else lower

/-- A number between two neighbours in a list; none if the rank lies past its end. -/
def interpolate? (sorted : List α) (rank : α) : Option α :=
  let lower := Quantity.whole rank
  let upper := rankCeiling rank lower
  if lower = upper then sorted[lower]?
  else do
    let fraction := rank - Quantity.ofNat lower
    let low ← sorted[lower]?
    let high ← sorted[upper]?
    some (low * (Quantity.ofNat 1 - fraction) + high * fraction)

/-- The percentile of sorted numbers; of no numbers it is zero. -/
def percentile? (sorted : List α) (p : α) : Option α :=
  if sorted.isEmpty then some (Quantity.ofNat 0)
  else interpolate? sorted (percentileRank sorted.length p)

def total (xs : List α) : α := xs.foldl (· + ·) Quantity.nothing

def mean (xs : List α) : α := total xs / Quantity.ofNat xs.length

/-- The mean square distance from the mean. -/
def variance (xs : List α) : α :=
  let m := mean xs
  total (xs.map fun x => (x - m) * (x - m)) / Quantity.ofNat xs.length

structure Profile (α : Type) where
  mean : α
  min : α
  max : α
  variance : α
  /-- The percentile of a whole number of hundredths. -/
  percentile : Nat → Option α

/-- None for no numbers. -/
def profile? (sorted : List α) : Option (Profile α) :=
  match sorted.head?, sorted.getLast? with
  | some min, some max =>
    some ⟨mean sorted, min, max, variance sorted,
      fun p => percentile? sorted (Quantity.ofNat p)⟩
  | _, _ => none

end BenchMetrics
