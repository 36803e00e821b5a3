import BenchMetrics.Request.Failure
import Mathlib.Data.List.Induction
import Mathlib.Data.List.Nodup
import Mathlib.Data.List.Perm.Basic

/-! The tally of failures is a count: of each failure that was recorded it keeps the number of
its occurrences, once. The report sorts by a total order, so nothing is left of the order of the
calls. -/
namespace BenchMetrics

namespace FailureCount

theorem order_eq : order = compareLex (fun a b => compare b.count a.count)
    (compareLex (compareOn (·.failure.message))
      (compareLex (compareOn (·.failure.code)) (compareOn (·.failure.kind)))) := rfl

instance : Std.TransCmp order := by
  have hcount : Std.TransCmp fun a b : FailureCount => compare b.count a.count := by
    have hfew : Std.TransCmp (compareOn FailureCount.count) := inferInstance
    exact hfew.opposite
  rw [order_eq]
  infer_instance

theorem eq_of_order {a b : FailureCount} (h : a.order b = .eq) : a = b := by
  obtain ⟨⟨code, kind, message⟩, count⟩ := a
  obtain ⟨⟨code', kind', message'⟩, count'⟩ := b
  simp only [order, Ordering.then_eq_eq, Std.LawfulEqOrd.compare_eq_iff_eq] at h
  obtain ⟨hcount, hmessage, hcode, hkind⟩ := h
  rw [hcount, hmessage, hcode, hkind]

end FailureCount

namespace FailureTally

/-- The tally of failures that come one after the other. -/
def ofFailures (fs : List Failure) : FailureTally := fs.foldl record .empty

theorem ofFailures_snoc (fs : List Failure) (f : Failure) :
    ofFailures (fs ++ [f]) = (ofFailures fs).record f := by
  rw [ofFailures, List.foldl_append]
  rfl

theorem countOf_record (t : FailureTally) (f g : Failure) :
    (t.record f).countOf g = t.countOf g + if f = g then 1 else 0 := by
  unfold countOf record
  dsimp only
  induction t.counts with
  | nil => by_cases h : f = g <;> simp [bump, h]
  | cons c cs ih =>
    rw [bump]
    by_cases hc : c.failure = f
    · -- this is the entry that is raised
      subst hc
      by_cases h : c.failure = g <;> simp [h]
    · rw [if_neg hc]
      by_cases h : c.failure = g
      · have hf : ¬ f = g := fun hf => hc (h.trans hf.symm)
        simp [h, hf]
      · simpa [h] using ih

theorem failures_bump (f : Failure) (cs : List FailureCount) :
    (bump f cs).map (·.failure) =
      cs.map (·.failure) ++ if f ∈ cs.map (·.failure) then [] else [f] := by
  induction cs with
  | nil => rfl
  | cons c cs ih =>
    rw [bump]
    by_cases hc : c.failure = f
    · simp [hc]
    · have hne : ¬ f = c.failure := fun h => hc h.symm
      rw [if_neg hc, List.map_cons, ih]
      simp [hne]

theorem countOf_ofFailures (fs : List Failure) (g : Failure) :
    (ofFailures fs).countOf g = fs.count g := by
  induction fs using List.reverseRecOn with
  | nil => rfl
  | append_singleton fs f ih =>
    rw [ofFailures_snoc, countOf_record, ih, List.count_append, List.count_singleton]
    simp

/-- Each failure has one entry. -/
theorem nodup_failures (fs : List Failure) :
    ((ofFailures fs).counts.map (·.failure)).Nodup := by
  induction fs using List.reverseRecOn with
  | nil => exact .nil
  | append_singleton fs f ih =>
    rw [ofFailures_snoc, record, failures_bump]
    by_cases hf : f ∈ (ofFailures fs).counts.map (·.failure)
    · rw [if_pos hf, List.append_nil]
      exact ih
    · rw [if_neg hf, List.nodup_append]
      refine ⟨ih, List.nodup_singleton f, ?_⟩
      intro g hg f' hf' heq
      rw [List.mem_singleton] at hf'
      rw [heq, hf'] at hg
      exact hf hg

theorem mem_failures (fs : List Failure) (f : Failure) :
    f ∈ (ofFailures fs).counts.map (·.failure) ↔ f ∈ fs := by
  induction fs using List.reverseRecOn with
  | nil => rfl
  | append_singleton fs g ih =>
    rw [ofFailures_snoc, record, failures_bump, List.mem_append, ih, List.mem_append,
      List.mem_singleton]
    by_cases hg : g ∈ (ofFailures fs).counts.map (·.failure)
    · rw [if_pos hg]
      have hseen : f = g → f ∈ fs := by
        intro heq
        rw [heq] at ih ⊢
        exact ih.mp hg
      simpa using hseen
    · rw [if_neg hg, List.mem_singleton]

/-- The entries are the failures that came, with the number of times they did. -/
theorem mem_counts (fs : List Failure) (c : FailureCount) :
    c ∈ (ofFailures fs).counts ↔ c.failure ∈ fs ∧ c.count = fs.count c.failure := by
  rw [← mem_failures, ← countOf_ofFailures, countOf]
  have hn := nodup_failures fs
  generalize (ofFailures fs).counts = cs at hn
  induction cs with
  | nil => simp
  | cons d cs ih =>
    rw [List.map_cons, List.nodup_cons] at hn
    have hcs := ih hn.2
    by_cases hd : d.failure = c.failure
    · have hnot : c ∉ cs := fun h => hn.1 (List.mem_map.mpr ⟨c, h, hd.symm⟩)
      obtain ⟨f, n⟩ := c
      obtain ⟨g, m⟩ := d
      simp only at hd
      subst hd
      simp [hnot]
    · have hne : ¬ c = d := fun h => hd (congrArg FailureCount.failure h).symm
      have hne' : ¬ c.failure = d.failure := fun h => hd h.symm
      simp [hne, hne', hd, hcs]

theorem mem_entries {fs : List Failure} {f : Failure} {n : Nat} :
    ⟨f, n⟩ ∈ (ofFailures fs).entries ↔ n = fs.count f ∧ n ≠ 0 := by
  rw [entries, List.mem_mergeSort, mem_counts]
  change f ∈ fs ∧ n = fs.count f ↔ n = fs.count f ∧ n ≠ 0
  constructor
  · rintro ⟨hmem, rfl⟩
    exact ⟨rfl, Nat.ne_of_gt (List.count_pos_iff.mpr hmem)⟩
  · rintro ⟨rfl, hne⟩
    exact ⟨List.count_pos_iff.mp (Nat.pos_of_ne_zero hne), rfl⟩

theorem total_ofFailures (fs : List Failure) : (ofFailures fs).total = fs.length := by
  induction fs using List.reverseRecOn with
  | nil => rfl
  | append_singleton fs f ih => rw [ofFailures_snoc, total_record, ih, List.length_append]; rfl

theorem wasCancelled_ofFailures (fs : List Failure) :
    (ofFailures fs).wasCancelled = false := by
  induction fs using List.reverseRecOn with
  | nil => rfl
  | append_singleton fs f ih => rw [ofFailures_snoc]; exact ih

theorem counts_perm {fs gs : List Failure} (h : fs.Perm gs) :
    (ofFailures fs).counts.Perm (ofFailures gs).counts := by
  have hnodup : ∀ fs, (ofFailures fs).counts.Nodup := fun fs => (nodup_failures fs).of_map
  apply (List.perm_ext_iff_of_nodup (hnodup fs) (hnodup gs)).mpr
  intro c
  rw [mem_counts, mem_counts, h.mem_iff, h.count_eq]

theorem entries_sorted (t : FailureTally) :
    t.entries.Pairwise fun a b => (a.order b).isLE = true := by
  apply List.pairwise_mergeSort
  · intro a b c hab hbc
    exact Std.TransCmp.isLE_trans hab hbc
  · intro a b
    rw [← Std.OrientedCmp.isGE_eq_isLE (a := a)]
    cases a.order b <;> rfl

theorem entries_eq_of_perm {t u : FailureTally} (h : t.counts.Perm u.counts) :
    t.entries = u.entries := by
  have hperm : t.entries.Perm u.entries :=
    ((List.mergeSort_perm _ _).trans h).trans (List.mergeSort_perm _ _).symm
  apply List.Perm.eq_of_pairwise _ t.entries_sorted u.entries_sorted hperm
  intro a b _ _ hab hba
  exact FailureCount.eq_of_order (Std.OrientedCmp.isLE_antisymm hab hba)

theorem totalOf_perm {cs ds : List FailureCount} (h : cs.Perm ds) : totalOf cs = totalOf ds :=
  h.foldr_eq' (fun c _ d _ n => Nat.add_left_comm d.count c.count n) 0

/-- Sorting the entries keeps their sum. -/
theorem totalOf_entries (t : FailureTally) : totalOf t.entries = t.total :=
  totalOf_perm (List.mergeSort_perm _ _)

/-- The report does not depend on the order of the calls. -/
theorem report_eq_of_perm {fs gs : List Failure} (h : fs.Perm gs) :
    (ofFailures fs).report = (ofFailures gs).report := by
  rw [report, report, total_ofFailures, total_ofFailures, h.length_eq,
    entries_eq_of_perm (counts_perm h), wasCancelled_ofFailures, wasCancelled_ofFailures]

end FailureTally
end BenchMetrics
