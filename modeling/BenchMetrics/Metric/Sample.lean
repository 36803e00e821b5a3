/-! Samples: the numbers that a series holds. Of the two values that are no number a float keeps
one, which stands above all numbers; the other stands below them. -/
namespace BenchMetrics

/-- The place of a float in the total order of floats: negative numbers by falling bits, then
the others by rising bits, `NaN` last. -/
def floatRank (x : Float) : Int :=
  if x.toBits < 0x8000000000000000 then x.toBits.toNat
  else 0x7fffffffffffffff - x.toBits.toNat

theorem toBits_inj {x y : Float} (h : x.toBits = y.toBits) : x = y := by
  rcases x with ⟨⟨a, _⟩⟩
  rcases y with ⟨⟨b, _⟩⟩
  change a = b at h
  subst h
  rfl

theorem floatRank_inj {x y : Float} (h : floatRank x = floatRank y) : x = y := by
  simp only [floatRank, UInt64.lt_iff_toNat_lt, UInt64.reduceToNat] at h
  apply toBits_inj
  apply UInt64.toNat_inj.mp
  generalize x.toBits.toNat = a at *
  generalize y.toBits.toNat = b at *
  omega

inductive Sample where
  | of (x : Float)
  /-- No number, with the sign of a negative one. -/
  | lowNaN
  deriving DecidableEq

namespace Sample

def toFloat : Sample → Float
  | .of x => x
  | .lowNaN => 0.0 / 0.0

/-- The sample that the bits of a double stand for. -/
def ofBits (bits : UInt64) : Sample :=
  let x := Float.ofBits bits
  if x.isNaN && 0x8000000000000000 ≤ bits then .lowNaN else .of x

/-- A change of scale leaves what is no number as it is. -/
def map (f : Float → Float) : Sample → Sample
  | .of x => .of (f x)
  | .lowNaN => .lowNaN

/-- The order in which samples are sorted. -/
def upTo : Sample → Sample → Bool
  | .lowNaN, _ => true
  | .of _, .lowNaN => false
  | .of x, .of y => floatRank x ≤ floatRank y

/-- Two samples that stand side by side in the order are the same. -/
theorem eq_of_upTo {a b : Sample} (h : a.upTo b) (h' : b.upTo a) : a = b := by
  cases a <;> cases b <;> simp only [upTo, decide_eq_true_eq] at h h'
  · exact congrArg of (floatRank_inj (Int.le_antisymm h h'))
  · cases h
  · cases h'
  · rfl

theorem upTo_total (a b : Sample) : a.upTo b || b.upTo a := by
  cases a <;> cases b <;> simp [upTo, Int.le_total]

theorem upTo_trans {a b c : Sample} (h : a.upTo b) (h' : b.upTo c) : a.upTo c := by
  cases a <;> cases b <;> cases c <;> simp only [upTo, decide_eq_true_eq] at h h' ⊢
  · exact Int.le_trans h h'
  · cases h'
  · cases h
  · cases h

/-- The numbers of samples, sorted. -/
def ascending (xs : List Sample) : List Float := (xs.mergeSort upTo).map toFloat

end Sample
end BenchMetrics
