import BenchMetrics.Decimal.Fixed
/-! The shortest decimal that reads back as a given float: on the grids of 1, 2, … 17 digits
the two neighbours of the exact value are tried; the first grid with a neighbour inside the
interval of reals that round to the float wins, and of two neighbours the nearer. -/
namespace BenchMetrics.Decimal

/-- `digits * 10 ^ exponent`. -/
structure Scientific where
  digits : Nat
  exponent : Int
  deriving DecidableEq, Repr

/-- `a / b < c / d` for positive denominators. -/
def ratioLt (a b c d : Nat) : Bool := a * d < c * b

/-- `10 ^ e` times a ratio. -/
def scaleTen (e : Int) (r : Nat × Nat) : Nat × Nat :=
  if 0 ≤ e then (r.1 * Nat.pow 10 e.natAbs, r.2) else (r.1, r.2 * Nat.pow 10 e.natAbs)

/-- The ends of the interval that rounds to `b`, in quarters of the last place of `b`: below a
power of two the floats lie twice as dense. -/
def Binary.interval (b : Binary) : (Nat × Nat) × (Nat × Nat) :=
  let low := if b.significand = hiddenBit ∧ leastExponent < b.exponent
    then 4 * b.significand - 1 else 4 * b.significand - 2
  (Binary.ratio ⟨false, low, b.exponent - 2⟩,
    Binary.ratio ⟨false, 4 * b.significand + 2, b.exponent - 2⟩)

/-- A point of a grid lies in the interval; the ends belong to it iff the significand is even. -/
def Binary.holds (b : Binary) (r : Nat × Nat) : Bool :=
  let (low, high) := b.interval
  let even := b.significand % 2 == 0
  let aboveLow := if even then !ratioLt r.1 r.2 low.1 low.2 else ratioLt low.1 low.2 r.1 r.2
  let belowHigh := if even then !ratioLt high.1 high.2 r.1 r.2 else ratioLt r.1 r.2 high.1 high.2
  aboveLow && belowHigh

/-- An `e` with `value < 10 ^ e`, by the binary lengths of the ratio: `30103 / 100000` is just
above the logarithm of two. -/
def decadeBound (r : Nat × Nat) : Int :=
  ((r.1.log2 : Int) + 1 - r.2.log2) * 30103 / 100000 + 2

/-- The least `e` with `value < 10 ^ e`, searched downwards from `e`. -/
def decade (r : Nat × Nat) : Nat → Int → Int
  | 0, e => e
  | fuel + 1, e =>
    let p := scaleTen (e - 1) (1, 1)
    if ratioLt r.1 r.2 p.1 p.2 then decade r fuel (e - 1) else e

/-- The neighbours of the value on the grid of multiples of `10 ^ e` that read back. -/
def Binary.onGrid (b : Binary) (e : Int) : Option Scientific :=
  let r := scaleTen (-e) b.ratio
  let below := r.1 / r.2
  let remainder := r.1 % r.2
  let fits (n : Nat) : Bool := b.holds (scaleTen e (n, 1))
  match fits below && 0 < below, fits (below + 1) with
  | true, true =>
    let nearer := if 2 * remainder < r.2 then below
      else if r.2 < 2 * remainder then below + 1 else below + below % 2
    some ⟨nearer, e⟩
  | true, false => some ⟨below, e⟩
  | false, true => some ⟨below + 1, e⟩
  | false, false => none

def Binary.search (b : Binary) (top : Int) : Nat → Nat → Option Scientific
  | 0, _ => none
  | fuel + 1, count =>
    match b.onGrid (top - count) with
    | some s => some s
    | none => b.search top fuel (count + 1)

/-- Trailing zeros moved into the exponent. -/
def Scientific.trimmed (s : Scientific) : Nat → Scientific
  | 0 => s
  | fuel + 1 =>
    if s.digits ≠ 0 ∧ s.digits % 10 = 0 then
      Scientific.trimmed ⟨s.digits / 10, s.exponent + 1⟩ fuel
    else s

/-- The shortest decimal of a positive value. -/
def Binary.shortest (b : Binary) : Scientific :=
  let top := decade b.ratio 5 (decadeBound b.ratio)
  ((b.search top 17 1).getD ⟨b.significand, 0⟩).trimmed 20

/-- How a shortest decimal is written: in positions from `10 ^ -5` up to `10 ^ 16`, always with
a digit after the point, and otherwise with an exponent. -/
def Scientific.render (s : Scientific) : String :=
  let ds := toString s.digits
  let count : Int := ds.length
  let point := count + s.exponent
  if 0 ≤ s.exponent ∧ point ≤ 16 then
    ds ++ String.ofList (List.replicate s.exponent.natAbs '0') ++ ".0"
  else if 0 < point ∧ point ≤ 16 then
    String.ofList (ds.toList.take point.natAbs) ++ "." ++
      String.ofList (ds.toList.drop point.natAbs)
  else if -5 < point ∧ point ≤ 0 then
    "0." ++ String.ofList (List.replicate point.natAbs '0') ++ ds
  else
    let tail := if ds.length = 1 then "" else "." ++ String.ofList (ds.toList.drop 1)
    String.ofList (ds.toList.take 1) ++ tail ++ "e" ++ toString (point - 1)

/-- The text of a finite float; none for the others. -/
def shortest? (x : Float) : Option String :=
  match Reading.ofFloat x with
  | .finite b =>
    some (sign b.negative ++ if b.significand = 0 then "0.0" else b.shortest.render)
  | _ => none

end BenchMetrics.Decimal
