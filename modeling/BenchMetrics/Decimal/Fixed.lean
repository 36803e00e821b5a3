import BenchMetrics.Decimal.Binary
/-! Floats with a fixed number of places after the point: the exact value is rounded once, a
tie goes to the even digit. -/
namespace BenchMetrics.Decimal

def sign (negative : Bool) : String := if negative then "-" else ""

/-- Zeros before a number up to a width. -/
def padZeros (width n : Nat) : String :=
  let s := toString n
  String.ofList (List.replicate (width - s.length) '0') ++ s

def Binary.fixed (places : Nat) (b : Binary) : String :=
  let (num, den) := b.ratio
  let scale := Nat.pow 10 places
  let units := roundDiv (num * scale) den
  sign b.negative ++ toString (units / scale) ++
    (if places = 0 then "" else "." ++ padZeros places (units % scale))

def fixed (places : Nat) (x : Float) : String :=
  match Reading.ofFloat x with
  | .nan => "NaN"
  | .infinite negative => sign negative ++ "inf"
  | .finite b => b.fixed places

end BenchMetrics.Decimal
