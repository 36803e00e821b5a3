import BenchMetrics.Proofs.Run.Independence
import BenchMetrics.Proofs.Run.Inertness

/-! A summary agrees with itself. Its parts come from different places: the figures and the values
from the metrics, the rejections from the tally of both passes, the failures from a tally of their
own, and the counts from the calls. An invariant of the run ties each of them to the others. -/
namespace BenchMetrics
open Accumulator

/-- A summary whose parts agree: the metrics are those of `order`, and the run ended as `ending`
says. -/
structure Summary.Consistent (order : List Descriptor) (unit : TimeUnit) (ending : Ending)
    (s : Summary) : Prop where
  /-- There is a result for each metric, in evaluation order. -/
  tags : s.results.map (·.tag) = order.map (·.tag.text)
  distinct : (s.results.map (·.tag)).Nodup
  keys : ∀ k, k ∈ s.values.keys ↔ k ∈ s.results.map (·.tag)
  /-- A result is made of the value that stands under its tag. -/
  shown : List.Forall₂ (fun d res => ∃ v, s.value? d.tag.text = some v ∧
    MetricResult.ofValue d v unit = .ok res) order s.results
  counted : ∀ res ∈ s.results, res.count = (s.realized res.tag).length
  valued : ∀ res ∈ s.results, res.hasValue ↔ s.realized res.tag ≠ []
  tallied : ∀ k n, s.rejections.get? k = some n → k ∈ s.results.map (·.tag) ∧ 1 ≤ n
  total : s.totalRejections =
    wordOf ((s.results.map fun res => s.rejectionsOf res.tag).foldl (· + ·) 0)
  failed : s.failed = s.failures.total ∧ s.failed = FailureTally.totalOf s.failures.entries
  bounded : s.failed + s.unusable ≤ s.processed
  ended : s.wasPartial = s.failures.wasCancelled ∧ s.wasPartial = decide (ending = .cancelled)

namespace Engine

/-- The books of an engine in between calls: what is tallied is tallied under its own metrics, and
the failed records are those whose failures are counted. -/
structure Balanced (e : Engine) : Prop where
  tallied : TalliedUnder (e.metrics.map (·.tag)) e.rejections
  failed : e.failed = e.failures.total
  bounded : e.failed + e.unusable ≤ e.processed
  running : e.failures.wasCancelled = false

section
variable {e : Engine} {ending : Ending} {s : Summary}

theorem Balanced.process (h : e.Balanced) (r : Record) : (e.process r).1.Balanced := by
  have hbounded := h.bounded
  cases hc : classify r with
  | failed f =>
    have htotal : e.failed + 1 = (e.failures.record f).total := by
      rw [FailureTally.total_record, h.failed]
    simp only [Engine.process, hc]
    exact ⟨h.tallied, htotal, by dsimp only; omega, h.running⟩
  | unusable =>
    simp only [Engine.process, hc]
    exact ⟨h.tallied, h.failed, by dsimp only; omega, h.running⟩
  | fed =>
    -- the pass keeps the metrics under their tags and notes no others
    have htags : (e.pass r).metrics.map (·.tag) = e.metrics.map (·.tag) := by
      rw [pass, feedFrom_eq_sweep]
      exact map_tag_of_emptied (map_emptied_sweep (offer_keeps r) _ _ _)
    have hnoted : ∀ t ∈ (e.pass r).rejected, t ∈ e.metrics.map (·.tag) := by
      intro t ht
      rw [pass, feedFrom_eq_sweep] at ht
      exact mem_of_rejected ht
    rw [process_of_fed hc]
    refine ⟨?_, h.failed, by dsimp only; omega, h.running⟩
    dsimp only
    rw [htags]
    exact h.tallied.foldl hnoted

theorem Balanced.after (h : e.Balanced) (rs : List Record) : (e.after rs).Balanced := by
  induction rs using List.reverseRecOn with
  | nil => exact h
  | append_singleton rs r ih =>
    rw [after_snoc]
    exact ih.process r

theorem balanced_of_withSelection {c : Catalog} {selection : List Tag} {settings : Settings}
    (he : withSelection c selection settings = .ok e) : e.Balanced := by
  rw [(withSelection_ok he).2.2]
  exact ⟨talliedUnder_empty _, rfl, Nat.le_refl 0, rfl⟩

/-- All counts of a summary. -/
theorem counts_of_finish (h : e.finish ending = .ok s) :
    s.processed = e.processed ∧ s.failed = e.failed ∧ s.unusable = e.unusable ∧
      s.failures = e.reportAt ending ∧ s.wasPartial = decide (ending = .cancelled) := by
  obtain ⟨results, hfinish⟩ := finish_ok (finish_eq_ok h).1 ending
  rw [hfinish] at h
  cases h
  exact ⟨rfl, rfl, rfl, rfl, rfl⟩

theorem totals_reportAt (e : Engine) (ending : Ending) :
    (e.reportAt ending).total = e.failures.total ∧
      FailureTally.totalOf (e.reportAt ending).entries = e.failures.total := by
  rw [reportAt]
  split <;> exact ⟨rfl, FailureTally.totalOf_entries _⟩

theorem wasCancelled_reportAt (h : e.failures.wasCancelled = false) (ending : Ending) :
    (e.reportAt ending).wasCancelled = decide (ending = .cancelled) := by
  cases ending with
  | completed => exact h
  | cancelled => rfl

/-- An engine whose books are balanced and whose metrics stand under different tags can only end
in a summary that agrees with itself. -/
theorem Balanced.finish (h : e.Balanced) (hn : (e.metrics.map (·.tag)).Nodup)
    (hs : e.finish ending = .ok s) :
    s.Consistent (e.metrics.map (·.descriptor)) e.settings.displayUnit ending := by
  obtain ⟨_, hvalues, hrejections, hresults⟩ := finish_eq_ok hs
  obtain ⟨hprocessed, hfailed, hunusable, hfailures, hpartial⟩ := counts_of_finish hs
  rw [summarizeFrom_eq_sweep] at hvalues hrejections hresults
  have hkept := map_emptied_sweep conclude_keeps false [] e.metrics
  have hnoted : ∀ t ∈ (sweep false conclude [] e.metrics).rejected, t ∈ e.metrics.map (·.tag) :=
    fun t ht => mem_of_rejected ht
  have htallied := h.tallied.foldl hnoted
  rw [← hrejections] at htallied
  generalize (sweep false conclude [] e.metrics).metrics = ms at hvalues hresults hkept
  rw [← map_tag_of_emptied hkept] at hn htallied
  rw [← map_descriptor_of_emptied hkept]
  -- each metric is found under its tag, with the value that its result is made of
  have hvalue : ∀ a ∈ ms, s.value? a.tag.text = some a.value := by
    intro a ha
    rw [Summary.value?, hvalues, get?_valuesOf hn ha]
  have htags : s.results.map (·.tag) = ms.map (·.tag.text) := map_tag_results hresults
  have hdistinct : (s.results.map (·.tag)).Nodup := htags ▸ nodup_texts hn
  have hcounted : ∀ res ∈ s.results, res.count = (s.realized res.tag).length := by
    intro res hres
    obtain ⟨a, ha, hof⟩ := forall₂_right hresults hres
    have hfound : s.value? a.descriptor.tag.text = some a.value := hvalue a ha
    rw [MetricResult.count_of_ofValue hof, MetricResult.tag_of_ofValue hof, Summary.realized, hfound]
    rfl
  have hunder : ∀ k n, s.rejections.get? k = some n → k ∈ s.results.map (·.tag) ∧ 1 ≤ n := by
    intro k n hkn
    obtain ⟨hk, hpos⟩ := htallied k n hkn
    rw [List.map_map] at hk
    exact ⟨htags ▸ hk, hpos⟩
  obtain ⟨htotal, hentries⟩ := totals_reportAt e ending
  exact {
    tags := by rw [htags, List.map_map]; rfl
    distinct := hdistinct
    keys := by
      intro k
      have htexts := keys_bound ms
      rw [hvalues, htags, ← htexts]
      exact Dict.mem_keys_ofList (htexts ▸ nodup_texts hn) k
    shown := by
      rw [List.forall₂_map_left_iff]
      refine ((List.forall₂_and_left _ _).mpr ⟨hvalue, hresults⟩).imp ?_
      intro a res hboth
      exact ⟨a.value, hboth⟩
    counted := hcounted
    valued := by
      intro res hres
      rw [MetricResult.hasValue, decide_eq_true_eq, hcounted res hres, List.length_pos_iff]
    tallied := hunder
    total := by
      have hkeys : ∀ k ∈ s.rejections.keys, k ∈ s.results.map (·.tag) := by
        intro k hk
        obtain ⟨n, hkn⟩ := Option.isSome_iff_exists.mp ((Dict.mem_keys_iff _ k).mp hk)
        exact (hunder k n hkn).1
      rw [Summary.totalRejections, Summary.rejectionSum, Dict.sum_values _ hdistinct hkeys, List.map_map]
      rfl
    failed := by rw [hfailed, hfailures, htotal, hentries]; exact ⟨h.failed, h.failed⟩
    bounded := by rw [hfailed, hunusable, hprocessed]; exact h.bounded
    ended := by
      rw [hfailures, wasCancelled_reportAt h.running]
      exact ⟨hpartial, hpartial⟩ }

end

/-- Every summary agrees with itself. An engine over metrics that start under the descriptors they
are registered with, under either policy and after calls that were refused or not, keeps one metric
for each descriptor of its order; and when it ends in a summary, however the run ended, the results,
the values, the tally of rejections, the failures and the counts of records all agree. -/
theorem summary_consistent {c : Catalog}
    (hown : ∀ d ∈ c.definitions, d.fresh.descriptor = d.descriptor) {selection : List Tag}
    {settings : Settings} {e : Engine} (he : withSelection c selection settings = .ok e)
    (rs : List Record) {ending : Ending} {s : Summary}
    (hs : (e.after rs).finish ending = .ok s) :
    (e.after rs).metrics.map (·.descriptor) = e.order ∧
      s.Consistent e.order settings.displayUnit ending := by
  have hkept := map_emptied_after e rs
  have hdescriptors : (e.after rs).metrics.map (·.descriptor) = e.order := by
    rw [map_descriptor_of_emptied hkept, map_descriptor_of_withSelection hown he]
  have htags : (e.after rs).metrics.map (·.tag) = EvaluationOrder.tagsOf e.order := by
    rw [EvaluationOrder.tagsOf, ← hdescriptors, List.map_map]
    rfl
  have hset : e.settings = settings := by rw [(withSelection_ok he).2.2]
  have hn : ((e.after rs).metrics.map (·.tag)).Nodup := by
    rw [htags]
    exact (withSelection_ok he).1.distinct
  have hconsistent := ((balanced_of_withSelection he).after rs).finish hn hs
  rw [hdescriptors, settings_after, hset] at hconsistent
  exact ⟨hdescriptors, hconsistent⟩

end Engine

namespace Standard

/-- All standard metrics over all kinds of records, broken off. -/
theorem summary_consistent_mixed :
    ∃ e s, Engine.withSelection catalog catalog.tags .default = .ok e ∧
      (e.after Engine.mixed).finish .cancelled = .ok s ∧
      s.Consistent e.order .milliseconds .cancelled ∧ s.failed = 1 ∧ s.wasPartial = true := by
  obtain ⟨e, he⟩ : ∃ e, Engine.withSelection catalog catalog.tags .default = .ok e := ⟨_, rfl⟩
  obtain ⟨results, hs⟩ := Engine.finish_ok (concluded_stopped he Engine.mixed) .cancelled
  have hconsistent := (Engine.summary_consistent fresh_descriptor he Engine.mixed hs).2
  refine ⟨e, _, he, hs, hconsistent, ?_, rfl⟩
  exact hconsistent.failed.1.trans (reportAt_after he Engine.mixed .cancelled).1

end Standard
end BenchMetrics
