import BenchMetrics.Request.Record
import Mathlib

/-! The output tokens of a record. They are added up in 64 bits one count after the other, and yet
it is the whole sum alone that decides: if it is a number of 64 bits then a record is made that has
it, and otherwise the program ends before there is a record. -/
namespace BenchMetrics.Record

/-- The counts that extracts carry. -/
def tokenCounts (es : List Extract) : List Nat := (es.filterMap (·.tokens)).map UInt64.toNat

/-- The sum of the counts, if there are any. -/
def tokenSum? (es : List Extract) : Option Nat :=
  match tokenCounts es with
  | [] => none
  | n :: ns => some (n :: ns).sum

/-- Counts that are added to a total one by one come to what their sum does. The total only grows:
once it leaves 64 bits, so does the sum. -/
theorem foldlM_addWords (ns : List UInt64) (a : UInt64) :
    ns.foldlM (fun total n => (addWords (total.getD 0) n).map some) (some a) =
      (wordOf (a.toNat + (ns.map UInt64.toNat).sum)).map some := by
  induction ns generalizing a with
  | nil =>
    have hword : wordOf a.toNat = .ok a := wordOf_eq_ok_iff.mpr rfl
    rw [List.map_nil, List.sum_nil, Nat.add_zero, hword]
    rfl
  | cons n ns ih =>
    rw [List.foldlM_cons, Option.getD_some, addWords, List.map_cons, List.sum_cons, ← Nat.add_assoc]
    cases hstep : wordOf (a.toNat + n.toNat) with
    | ok w =>
      rw [← wordOf_eq_ok_iff.mp hstep]
      exact ih w
    | error p =>
      cases p
      have hlarge := wordOf_eq_error_iff.mp hstep
      have hsum : wordOf (a.toNat + n.toNat + (ns.map UInt64.toNat).sum) = .error .overflow :=
        wordOf_eq_error_iff.mpr (Nat.le_add_right_of_le hlarge)
      rw [hsum]
      rfl

/-- What is summed is the sum of the counts as one word. -/
theorem sumTokens_eq (es : List Extract) : sumTokens es =
    if tokenCounts es = [] then .ok none else (wordOf (tokenCounts es).sum).map some := by
  rw [sumTokens, tokenCounts]
  cases es.filterMap (·.tokens) with
  | nil => rfl
  | cons n ns =>
    have hsum := foldlM_addWords (n :: ns) 0
    rw [UInt64.toNat_zero, Nat.zero_add] at hsum
    have hne : (n :: ns).map UInt64.toNat ≠ [] := List.cons_ne_nil _ _
    rw [if_neg hne]
    exact hsum

theorem tokenCounts_eq_nil_iff {es : List Extract} :
    tokenCounts es = [] ↔ ∀ e ∈ es, e.tokens = none := by
  rw [tokenCounts, List.map_eq_nil_iff, List.filterMap_eq_nil_iff]

theorem tokenSum?_eq (es : List Extract) :
    tokenSum? es = if tokenCounts es = [] then none else some (tokenCounts es).sum := by
  rw [tokenSum?]
  cases tokenCounts es <;> rfl

variable {es : List Extract}

theorem le_sum_of_mem {e : Extract} (he : e ∈ es) {n : UInt64} (hn : e.tokens = some n) :
    n.toNat ≤ (tokenCounts es).sum :=
  List.le_sum_of_mem (List.mem_map_of_mem (List.mem_filterMap.mpr ⟨e, he, hn⟩))

theorem exists_sumTokens (h : (tokenCounts es).sum < 2 ^ 64) :
    ∃ total, sumTokens es = .ok total ∧ total.map UInt64.toNat = tokenSum? es := by
  rw [sumTokens_eq, tokenSum?_eq]
  by_cases hnone : tokenCounts es = []
  · exact ⟨none, by rw [if_pos hnone], by rw [if_pos hnone]; rfl⟩
  · have hsum := UInt64.toNat_ofNat_of_lt' h
    have hword : wordOf (tokenCounts es).sum = .ok (.ofNat (tokenCounts es).sum) :=
      wordOf_eq_ok_iff.mpr hsum
    refine ⟨some (.ofNat (tokenCounts es).sum), ?_, ?_⟩
    · rw [if_neg hnone, hword]
      rfl
    · rw [if_neg hnone, Option.map_some, hsum]

theorem sumTokens_eq_error_iff {p : Panic} :
    sumTokens es = .error p ↔ 2 ^ 64 ≤ (tokenCounts es).sum := by
  rw [sumTokens_eq]
  by_cases hnone : tokenCounts es = []
  · simp [hnone]
  · rw [if_neg hnone]
    cases hword : wordOf (tokenCounts es).sum with
    | ok w =>
      rw [← wordOf_eq_ok_iff.mp hword]
      simp [Except.map, w.toNat_lt]
    | error q =>
      cases p
      cases q
      simpa [Except.map] using wordOf_eq_error_iff.mp hword

section
variable {total : Option UInt64}

theorem eq_none_iff_of_exact (h : total.map UInt64.toNat = tokenSum? es) :
    total = none ↔ ∀ e ∈ es, e.tokens = none := by
  rw [← tokenCounts_eq_nil_iff, ← Option.map_eq_none_iff (f := UInt64.toNat), h, tokenSum?_eq]
  split <;> simp [*]

/-- No extract carries more than the sum of the counts. -/
theorem exists_le_of_exact (h : total.map UInt64.toNat = tokenSum? es) {e : Extract} (he : e ∈ es)
    {n : UInt64} (hn : e.tokens = some n) : ∃ sum ∈ total, n ≤ sum := by
  have hsome : tokenCounts es ≠ [] := by
    intro hnone
    rw [tokenCounts_eq_nil_iff.mp hnone e he] at hn
    cases hn
  rw [tokenSum?_eq, if_neg hsome, Option.map_eq_some_iff] at h
  obtain ⟨sum, hsum, hexact⟩ := h
  refine ⟨sum, hsum, ?_⟩
  rw [UInt64.le_iff_toNat_le, hexact]
  exact le_sum_of_mem he hn

end

/-- A record is made if the counts that its extracts carry have a sum of 64 bits. It has that sum,
and none exactly if no extract carries a count; no extract carries more than it has. Exactly if the
sum is a larger number there is no record, and the program ends. -/
theorem make_exact (request : Request) (es : List Extract) :
    ((tokenCounts es).sum < 2 ^ 64 → ∃ total, make request es = .ok (plain request total es) ∧
      total.map UInt64.toNat = tokenSum? es ∧ (total = none ↔ ∀ e ∈ es, e.tokens = none) ∧
      ∀ e ∈ es, ∀ n ∈ e.tokens, ∃ sum ∈ total, n ≤ sum) ∧
    (make request es = .error .overflow ↔ 2 ^ 64 ≤ (tokenCounts es).sum) := by
  refine ⟨fun h => ?_, ?_⟩
  · obtain ⟨total, hsums, hexact⟩ := exists_sumTokens h
    have hmake : make request es = .ok (plain request total es) := by
      rw [make, hsums]
      rfl
    exact ⟨total, hmake, hexact, eq_none_iff_of_exact hexact,
      fun e he n hn => exists_le_of_exact hexact he hn⟩
  · rw [← sumTokens_eq_error_iff (p := .overflow), make]
    cases sumTokens es <;> simp [Except.map]

/-- All that a word holds, and a response without a count. -/
def filling : List Extract :=
  [.make 20 (some 18446744073709551614), .make 30 none, .make 40 (some 1)]

theorem make_exact_filling : (tokenCounts filling).sum < 2 ^ 64 ∧
    ∃ total, make (.start .null 10) filling = .ok (plain (.start .null 10) total filling) ∧
      total.map UInt64.toNat = tokenSum? filling := by
  have hfits : (tokenCounts filling).sum < 2 ^ 64 := by decide
  obtain ⟨total, hmake, hexact, _⟩ := (make_exact (.start .null 10) filling).1 hfits
  exact ⟨hfits, total, hmake, hexact⟩

/-- All that a word holds, and one more. -/
def overflowing : List Extract :=
  [.make 20 (some 18446744073709551615), .make 30 (some 1)]

/-- Counts that overflow a word have a sum, and leave no record that has it. -/
theorem make_overflowing : tokenSum? overflowing = some (2 ^ 64) ∧
    make (.start .null 10) overflowing = .error .overflow ∧
    ∀ r, make (.start .null 10) overflowing ≠ .ok r :=
  ⟨rfl, rfl, fun _ => nofun⟩

end BenchMetrics.Record
