/-! Failed requests, counted by cause. The tally keeps causes in the order of their first
occurrence; what it reports does not depend on that order. -/
namespace BenchMetrics

/-- Why a request failed. Two failures are the same when all three parts agree. -/
structure Failure where
  code : Option UInt16
  kind : Option String
  message : String
  deriving DecidableEq, Repr

def Failure.text (f : Failure) : String :=
  match f.code, f.kind with
  | some code, some kind => toString code.toNat ++ " " ++ kind ++ ": " ++ f.message
  | some code, none => toString code.toNat ++ ": " ++ f.message
  | none, some kind => kind ++ ": " ++ f.message
  | none, none => f.message

structure FailureCount where
  failure : Failure
  count : Nat
  deriving DecidableEq, Repr

/-- Frequent causes first, then by message, code and kind, an absent part before a present
one. -/
def FailureCount.order (a b : FailureCount) : Ordering :=
  (compare b.count a.count).then <|
    (compare a.failure.message b.failure.message).then <|
      (compare a.failure.code b.failure.code).then <|
        compare a.failure.kind b.failure.kind

structure FailureReport where
  total : Nat
  entries : List FailureCount
  /-- The run ended before every request was seen. -/
  wasCancelled : Bool
  deriving DecidableEq, Repr

structure FailureTally where
  counts : List FailureCount
  wasCancelled : Bool
  deriving DecidableEq, Repr

namespace FailureTally

def empty : FailureTally := ⟨[], false⟩

/-- All occurrences in a list of counts. -/
def totalOf (cs : List FailureCount) : Nat := cs.foldr (fun c n => c.count + n) 0

/-- Adds one occurrence to a list of counts. -/
def bump (f : Failure) : List FailureCount → List FailureCount
  | [] => [⟨f, 1⟩]
  | c :: cs => if c.failure = f then ⟨f, c.count + 1⟩ :: cs else c :: bump f cs

def record (t : FailureTally) (f : Failure) : FailureTally := { t with counts := bump f t.counts }

def markCancelled (t : FailureTally) : FailureTally := { t with wasCancelled := true }

def total (t : FailureTally) : Nat := totalOf t.counts

def distinct (t : FailureTally) : Nat := t.counts.length

def isEmpty (t : FailureTally) : Bool := t.counts.isEmpty

def countOf (t : FailureTally) (f : Failure) : Nat :=
  ((t.counts.find? (·.failure = f)).map (·.count)).getD 0

def entries (t : FailureTally) : List FailureCount :=
  t.counts.mergeSort fun a b => (a.order b).isLE

def report (t : FailureTally) : FailureReport := ⟨t.total, t.entries, t.wasCancelled⟩

theorem totalOf_bump (f : Failure) (cs : List FailureCount) :
    totalOf (bump f cs) = totalOf cs + 1 := by
  induction cs with
  | nil => rfl
  | cons c cs ih =>
    simp only [totalOf, List.foldr_cons] at ih ⊢
    simp only [bump]
    split
    · simp only [List.foldr_cons]; omega
    · simp only [List.foldr_cons, ih]; omega

theorem total_record (t : FailureTally) (f : Failure) : (t.record f).total = t.total + 1 :=
  totalOf_bump f t.counts

end FailureTally
end BenchMetrics
