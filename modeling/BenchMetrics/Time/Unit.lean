import BenchMetrics.Text.Blank
/-! Time units by their power of ten, and the conversion of values between them. -/
namespace BenchMetrics

inductive TimeUnit where
  | nanoseconds
  | microseconds
  | milliseconds
  | seconds
  deriving DecidableEq, Repr, Inhabited

namespace TimeUnit

/-- The power of ten of one unit, in seconds. -/
def exponent : TimeUnit → Int
  | .nanoseconds => -9
  | .microseconds => -6
  | .milliseconds => -3
  | .seconds => 0

def short : TimeUnit → String
  | .nanoseconds => "ns"
  | .microseconds => "us"
  | .milliseconds => "ms"
  | .seconds => "s"

/-- Finer units come first. -/
def compare (a b : TimeUnit) : Ordering := Ord.compare a.exponent b.exponent

/-- The unit with a short name. -/
def ofShort? (s : String) : Option TimeUnit :=
  if s = "ns" then some .nanoseconds
  else if s = "us" then some .microseconds
  else if s = "ms" then some .milliseconds
  else if s = "s" then some .seconds
  else none

/-- A unit word, white space around it and case aside; the word itself if it is unknown. -/
def parse (s : String) : Except String TimeUnit :=
  let word := Text.lowerAscii (Text.strip s)
  if word = "ns" || word = "nanoseconds" then .ok .nanoseconds
  else if word = "us" || word = "\u00b5s" || word = "microseconds" then .ok .microseconds
  else if word = "ms" || word = "milliseconds" then .ok .milliseconds
  else if word = "s" || word = "sec" || word = "seconds" then .ok .seconds
  else .error word

def unknownMessage (word : String) : String := "unknown time unit '" ++ word ++ "'"

/-- `10 ^ n` for the exponents between units, which floats hold exactly. -/
def powerOfTen (n : Nat) : Float := Float.ofNat (Nat.pow 10 n)

/-- Going to a coarser unit divides, so that whole multiples stay exact. -/
def convert (source : TimeUnit) (value : Float) (target : TimeUnit) : Float :=
  let e := source.exponent - target.exponent
  if 0 ≤ e then value * powerOfTen e.natAbs else value / powerOfTen e.natAbs

end TimeUnit
end BenchMetrics
