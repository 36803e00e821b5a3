/-! Numbers that statistics are computed from: floats in a run, rationals where exact values
are wanted. -/
namespace BenchMetrics

class Quantity (α : Type) extends Add α, Sub α, Mul α, Div α where
  ofNat : Nat → α
  /-- What sums start from: adding it changes no number. -/
  nothing : α
  /-- The whole part, and zero for what has none. -/
  whole : α → Nat
  less : α → α → Bool

instance : Quantity Float where
  ofNat := Float.ofNat
  nothing := -0.0
  whole x := x.toUInt64.toNat
  less a b := a < b

instance : Quantity Rat where
  ofNat n := n
  nothing := 0
  whole x := x.floor.toNat
  less a b := a < b

end BenchMetrics
