import BenchMetrics.Proofs.Tally.Failure
import BenchMetrics.Proofs.Tally.Keyed

/-! The report of failures is canonical. A tally may keep its entries in any order, and in another
one after each call; what it answers is a function of how often each failure came. The report puts
the entries into the one strict order that they have. -/
namespace BenchMetrics

/-- Frequent causes first; among equally frequent ones by message, then by code, then by kind, where
an absent part comes before any present one. -/
def FailureCount.Before (c d : FailureCount) : Prop :=
  d.count < c.count ∨ c.count = d.count ∧
    (c.failure.message < d.failure.message ∨ c.failure.message = d.failure.message ∧
      (c.failure.code < d.failure.code ∨ c.failure.code = d.failure.code ∧
        c.failure.kind < d.failure.kind))

namespace FailureCount

theorem compare_option_eq_lt {α : Type} [Ord α] [LT α]
    (h : ∀ a b : α, compare a b = .lt ↔ a < b) (a b : Option α) :
    compare a b = .lt ↔ a < b := by
  cases a with
  | none => cases b <;> simp [compare]
  | some a =>
    cases b with
    | none => simp [compare]
    | some b => exact (h a b).trans Option.some_lt_some.symm

theorem order_eq_lt_iff {c d : FailureCount} : c.order d = .lt ↔ c.Before d := by
  have hcount : compare d.count c.count = .lt ↔ d.count < c.count := Nat.compare_eq_lt
  have htext : ∀ s t : String, compare s t = .lt ↔ s < t := fun _ _ => compareOfLessAndEq_eq_lt
  have hmessage := htext c.failure.message d.failure.message
  have hcode := compare_option_eq_lt (fun _ _ => Std.compare_eq_lt) c.failure.code d.failure.code
  have hkind := compare_option_eq_lt htext c.failure.kind d.failure.kind
  rw [order, Ordering.then_eq_lt, Ordering.then_eq_lt, Ordering.then_eq_lt, hcount, hmessage, hcode,
    hkind]
  simp only [Std.LawfulEqOrd.compare_eq_iff_eq, Before, eq_comm (a := d.count)]

end FailureCount

namespace FailureTally

/-- A tally after some calls. Its entries may have been put into any order after each of them. -/
inductive Kept : List Failure → FailureTally → Prop where
  | start : Kept [] empty
  | record {calls : List Failure} {t : FailureTally} (f : Failure) {counts : List FailureCount}
    (hkept : Kept calls t) (hcounts : counts.Perm (t.record f).counts) :
    Kept (calls ++ [f]) { t with counts := counts }

/-- The order of first occurrence is one that the entries may be kept in. -/
theorem kept_ofFailures (calls : List Failure) : Kept calls (ofFailures calls) := by
  induction calls using List.reverseRecOn with
  | nil => exact .start
  | append_singleton calls f ih =>
    rw [ofFailures_snoc]
    exact ih.record f .rfl

/-- One more occurrence is counted alike in every order of the entries. -/
theorem bump_perm (f : Failure) {cs ds : List FailureCount} (h : cs.Perm ds)
    (hn : (cs.map (·.failure)).Nodup) : (bump f cs).Perm (bump f ds) := by
  induction h with
  | nil => exact .rfl
  | cons c h ih =>
    rw [bump, bump]
    split
    · exact h.cons _
    · exact (ih (List.nodup_cons.mp hn).2).cons c
  | swap c d l =>
    have hne : d.failure ≠ c.failure := by
      intro heq
      exact (List.nodup_cons.mp hn).1 (by simp [heq])
    by_cases hc : c.failure = f
    · have hd : d.failure ≠ f := fun hd => hne (hd.trans hc.symm)
      simpa [bump, hc, hd] using List.Perm.swap _ _ _
    · by_cases hd : d.failure = f
      · simpa [bump, hc, hd] using List.Perm.swap _ _ _
      · simpa [bump, hc, hd] using List.Perm.swap _ _ _
  | trans h _ ih ih' => exact (ih hn).trans (ih' ((h.map _).nodup_iff.mp hn))

variable {calls : List Failure} {t : FailureTally}

theorem Kept.counts_perm (h : Kept calls t) : t.counts.Perm (ofFailures calls).counts := by
  induction h with
  | start => exact .rfl
  | @record calls t f counts _ hcounts ih =>
    have hn : (t.counts.map (·.failure)).Nodup :=
      (ih.map _).nodup_iff.mpr (nodup_failures calls)
    rw [ofFailures_snoc]
    exact hcounts.trans (bump_perm f ih hn)

theorem Kept.wasCancelled (h : Kept calls t) : t.wasCancelled = false := by
  induction h with
  | start => rfl
  | record _ _ _ ih => exact ih

theorem Kept.nodup (h : Kept calls t) : (t.counts.map (·.failure)).Nodup :=
  (h.counts_perm.map _).nodup_iff.mpr (nodup_failures calls)

theorem Kept.countOf (h : Kept calls t) (f : Failure) : t.countOf f = calls.count f := by
  rw [← countOf_ofFailures, FailureTally.countOf, FailureTally.countOf]
  rw [find?_key_of_perm h.counts_perm h.nodup]

theorem Kept.report (h : Kept calls t) : t.report = (ofFailures calls).report := by
  rw [FailureTally.report, FailureTally.report, entries_eq_of_perm h.counts_perm, h.wasCancelled,
    wasCancelled_ofFailures, total, totalOf_perm h.counts_perm, total]

/-- Entries of different failures are in strict order. -/
theorem entries_before (hn : (t.counts.map (·.failure)).Nodup) :
    t.entries.Pairwise FailureCount.Before := by
  have hperm : t.entries.Perm t.counts := List.mergeSort_perm _ _
  have hdistinct : t.entries.Pairwise fun c d => c.failure ≠ d.failure :=
    List.pairwise_map.mp ((hperm.map _).nodup_iff.mpr hn)
  apply hdistinct.imp₂ _ t.entries_sorted
  intro c d hne hle
  rw [← FailureCount.order_eq_lt_iff]
  cases horder : c.order d with
  | lt => rfl
  | eq => exact absurd (congrArg FailureCount.failure (FailureCount.eq_of_order horder)) hne
  | gt => rw [horder] at hle; cases hle

/-- Whatever order the entries are kept in, and however it changes: a failure is counted as often as
it came, in code, kind and message; the report lists each failure that came once, with that count,
in strict order; it counts the entries and the calls; and calls in another order give the same
report. -/
theorem report_canonical (h : Kept calls t) :
    (∀ f, t.countOf f =
      calls.countP fun g => g.code = f.code ∧ g.kind = f.kind ∧ g.message = f.message) ∧
    (∀ f, f ∈ t.entries.map (·.failure) ↔ f ∈ calls) ∧
    (t.entries.map (·.failure)).Nodup ∧
    (∀ c ∈ t.entries, c.count = t.countOf c.failure) ∧
    t.entries.Pairwise FailureCount.Before ∧
    t.distinct = t.entries.length ∧
    t.total = calls.length ∧
    ∀ others u, others.Perm calls → Kept others u → u.report = t.report := by
  have hperm : t.entries.Perm t.counts := List.mergeSort_perm _ _
  have hmem : ∀ c, c ∈ t.entries ↔ c.failure ∈ calls ∧ c.count = t.countOf c.failure := by
    intro c
    rw [hperm.mem_iff, h.counts_perm.mem_iff, mem_counts, h.countOf]
  refine ⟨?_, ?_, ?_, ?_, entries_before h.nodup, hperm.length_eq.symm, ?_, ?_⟩
  · intro f
    rw [h.countOf, List.count]
    apply List.countP_congr
    rintro ⟨code, kind, message⟩ _
    obtain ⟨code', kind', message'⟩ := f
    simp
  · intro f
    rw [List.mem_map]
    constructor
    · rintro ⟨c, hc, rfl⟩
      exact ((hmem c).mp hc).1
    · exact fun hf => ⟨⟨f, t.countOf f⟩, (hmem _).mpr ⟨hf, rfl⟩, rfl⟩
  · exact (hperm.map _).nodup_iff.mpr h.nodup
  · exact fun c hc => ((hmem c).mp hc).2
  · have htotal := congrArg FailureReport.total h.report
    exact htotal.trans (total_ofFailures calls)
  · intro others u hothers hu
    rw [hu.report, h.report, report_eq_of_perm hothers]

/-- Failures that differ in one part each, the last of them twice. -/
def partly : List Failure :=
  [⟨some 504, some "Timeout", "x"⟩, ⟨none, none, "x"⟩, ⟨none, some "Timeout", "y"⟩,
    ⟨none, some "Timeout", "x"⟩, ⟨none, some "Timeout", "x"⟩]

/-- Entries that stand the other way round after the last call, and calls in the other order. -/
theorem report_canonical_partly :
    ∃ t, Kept partly t ∧ t.counts = (ofFailures partly).counts.reverse ∧
      t.distinct = 4 ∧ t.total = 5 ∧ t.countOf ⟨none, some "Timeout", "x"⟩ = 2 ∧
      t.entries.Pairwise FailureCount.Before ∧ (ofFailures partly.reverse).report = t.report := by
  have hkept : Kept partly { ofFailures partly with counts := (ofFailures partly).counts.reverse } :=
    (kept_ofFailures partly.dropLast).record ⟨none, some "Timeout", "x"⟩ (List.reverse_perm _)
  obtain ⟨hcount, _, _, _, hbefore, _, htotal, hreport⟩ := report_canonical hkept
  exact ⟨_, hkept, rfl, rfl, htotal, hcount _, hbefore,
    hreport _ _ (List.reverse_perm _) (kept_ofFailures _)⟩

end FailureTally
end BenchMetrics
