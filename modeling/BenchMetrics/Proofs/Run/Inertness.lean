import BenchMetrics.Proofs.Run.Completion
import BenchMetrics.Proofs.Run.Slots

/-! Records that reach no metric. One that failed and one that is not usable are counted, and that is
all they do: the calls for the other records answer as they would without them, and the run ends
with the same metrics, whatever a call in between was refused for. -/
namespace BenchMetrics

/-- It carries no failure and is usable. -/
def Record.isFit (r : Record) : Bool := r.failure.isNone && r.isUsable

namespace Engine

theorem classify_eq_fed {r : Record} : classify r = .fed ↔ r.isFit := by
  rw [classify, Record.isFit]
  cases r.failure with
  | some f => simp
  | none => cases r.isUsable <;> simp

theorem fed_eq_filter (rs : List Record) : fed rs = rs.filter Record.isFit := by
  apply List.filter_congr
  intro r _
  rw [Bool.eq_iff_iff, decide_eq_true_eq, classify_eq_fed]

/-- Two engines that have made the same of their metrics, and would make the same of a record. -/
structure SameWork (e e' : Engine) : Prop where
  settings : e.settings = e'.settings
  metrics : e.metrics = e'.metrics
  rejections : e.rejections = e'.rejections

section
variable {e e' : Engine} {r : Record}

theorem SameWork.process_of_fed (h : SameWork e e') (hr : classify r = .fed) :
    SameWork (e.process r).1 (e'.process r).1 ∧ (e.process r).2 = (e'.process r).2 := by
  have hpass : e.pass r = e'.pass r := by rw [pass, pass, h.settings, h.metrics]
  rw [Engine.process_of_fed hr, Engine.process_of_fed hr, hpass]
  exact ⟨⟨h.settings, rfl, by rw [h.rejections]⟩, rfl⟩

theorem SameWork.process_of_not_fed (h : SameWork e e') (hr : classify r ≠ .fed) :
    SameWork (e.process r).1 e' := by
  obtain ⟨_, hmetrics, hrejections⟩ := Engine.process_of_not_fed hr (e := e)
  refine ⟨?_, ?_, ?_⟩
  · rw [settings_process, h.settings]
  · rw [hmetrics, h.metrics]
  · rw [hrejections, h.rejections]

end

/-- What each call of a run answers, with its record. -/
def answers (e : Engine) (rs : List Record) : List (Record × Except MetricError Unit) :=
  (e.calls rs).map fun c => (c.record, (c.engine.process c.record).2)

theorem answers_snoc (e : Engine) (rs : List Record) (r : Record) :
    e.answers (rs ++ [r]) = e.answers rs ++ [(r, ((e.after rs).process r).2)] := by
  rw [answers, calls_snoc, List.map_append]
  rfl

/-- A run and the run over the records that reach the metrics: they stay in step, and the calls for
those records answer alike. -/
theorem sameWork_fed (e : Engine) (rs : List Record) :
    SameWork (e.after rs) (e.after (fed rs)) ∧
      (e.answers rs).filter (·.1.isFit) = e.answers (fed rs) := by
  induction rs using List.reverseRecOn with
  | nil => exact ⟨⟨rfl, rfl, rfl⟩, rfl⟩
  | append_singleton rs r ih =>
    obtain ⟨hstep, hanswers⟩ := ih
    rw [after_snoc, answers_snoc, List.filter_append, hanswers, fed_snoc]
    by_cases hr : classify r = .fed
    · obtain ⟨hafter, hsame⟩ := hstep.process_of_fed hr
      rw [if_pos hr, after_snoc, answers_snoc, List.filter_singleton, classify_eq_fed.mp hr, hsame]
      exact ⟨hafter, rfl⟩
    · have hunfit : r.isFit = false := by
        rw [← Bool.not_eq_true, ← classify_eq_fed]
        exact hr
      rw [if_neg hr, List.append_nil, List.filter_singleton, hunfit]
      exact ⟨hstep.process_of_not_fed hr, List.append_nil _⟩

theorem accepted_of_unfit {e : Engine} {rs : List Record} {p : Record × Except MetricError Unit}
    (hp : p ∈ e.answers rs) (hunfit : ¬ p.1.isFit) : p.2 = .ok () := by
  obtain ⟨c, _, rfl⟩ := List.mem_map.mp hp
  exact (process_of_not_fed fun hfed => hunfit (classify_eq_fed.mp hfed)).1

/-- The counts of a run, under either policy. -/
theorem counts_after (e : Engine) (rs : List Record) :
    (e.after rs).processed = e.processed + rs.length ∧
    (e.after rs).failed = e.failed + rs.countP (·.failure.isSome) ∧
    (e.after rs).unusable = e.unusable + rs.countP (fun r => classify r = .unusable) ∧
    (e.after rs).failures = (rs.filterMap Record.failure).foldl .record e.failures := by
  induction rs using List.reverseRecOn with
  | nil => exact ⟨rfl, rfl, rfl, rfl⟩
  | append_singleton rs r ih =>
    obtain ⟨hprocessed, hfailed, hunusable, hfailures⟩ := ih
    rw [after_snoc, List.length_append, List.countP_append, List.countP_append,
      List.filterMap_append, List.foldl_append, ← hfailures, ← Nat.add_assoc, ← Nat.add_assoc,
      ← Nat.add_assoc, ← hprocessed, ← hfailed, ← hunusable]
    cases hc : classify r with
    | failed f =>
      have hf : r.failure = some f := classify_eq_failed.mp hc
      simp [process, hc, hf]
    | unusable | fed =>
      have hf : r.failure = none := failure_eq_none (by simp [hc])
      simp [process, hc, hf]

/-- What an engine reports of failures at an ending. -/
def reportAt (e : Engine) (ending : Ending) : FailureReport :=
  (if ending = .cancelled then e.failures.markCancelled else e.failures).report

/-- Engines with the same metrics come to the same summary, but for the counts of their records, the
failures, and how the run ended. -/
theorem SameWork.finish {e e' : Engine} (h : SameWork e e') (ending ending' : Ending) :
    e.finish ending = (e'.finish ending').map fun s => { s with
      processed := e.processed
      failed := e.failed
      unusable := e.unusable
      failures := e.reportAt ending
      wasPartial := decide (ending = .cancelled) } := by
  rw [Engine.finish, Engine.finish, h.metrics, h.settings, h.rejections]
  cases (summarizeFrom [] e'.metrics).stopped with
  | some err => rfl
  | none =>
    dsimp only
    cases (summarizeFrom [] e'.metrics).metrics.mapM fun a =>
      MetricResult.ofValue a.descriptor a.value e'.settings.displayUnit <;> rfl

end Engine

namespace Standard

variable {selection : List Tag} {settings : Settings} {e : Engine}

/-- The report of a run counts the failures of its records, whatever else is wrong with them. -/
theorem reportAt_after (he : Engine.withSelection catalog selection settings = .ok e)
    (rs : List Record) (ending : Ending) :
    ((e.after rs).reportAt ending).total = rs.countP (·.failure.isSome) ∧
    ∀ f n, ⟨f, n⟩ ∈ ((e.after rs).reportAt ending).entries ↔
      n = rs.countP (·.failure = some f) ∧ n ≠ 0 := by
  have hfailures : (e.after rs).failures = .ofFailures (rs.filterMap Record.failure) := by
    rw [(Engine.counts_after e rs).2.2.2, (Engine.withSelection_ok he).2.2]
    rfl
  have hreport : ((e.after rs).reportAt ending).total = (e.after rs).failures.total ∧
      ((e.after rs).reportAt ending).entries = (e.after rs).failures.entries := by
    rw [Engine.reportAt]
    split <;> exact ⟨rfl, rfl⟩
  rw [hreport.1, hreport.2, hfailures, FailureTally.total_ofFailures]
  refine ⟨?_, ?_⟩
  · exact List.length_filterMap_eq_countP
  · intro f n
    have hcount : (rs.filterMap Record.failure).count f = rs.countP (·.failure = some f) := by
      rw [List.count_filterMap]
      apply List.countP_congr
      intro r _
      rw [beq_iff_eq, decide_eq_true_eq]
    rw [FailureTally.mem_entries, hcount]

/-- Records that carry a failure or are not usable do nothing to the metrics. Their calls are
accepted, the others answer as in the run over the records that are left, under either policy, and
both runs end with the same metrics and the same summary but for the counts of records and the
failures. Those are the failures of all records that carry one, usable or not. -/
theorem unfit_inert (he : Engine.withSelection catalog selection settings = .ok e)
    (rs : List Record) :
    (∀ p ∈ e.answers rs, ¬ p.1.isFit → p.2 = .ok ()) ∧
    (e.answers rs).filter (·.1.isFit) = e.answers (rs.filter Record.isFit) ∧
    (e.after rs).metrics = (e.after (rs.filter Record.isFit)).metrics ∧
    ∀ ending, ∃ s s', (e.after rs).finish ending = .ok s ∧
      (e.after (rs.filter Record.isFit)).finish ending = .ok s' ∧
      s.values = s'.values ∧ s.results = s'.results ∧ s.rejections = s'.rejections ∧
      s = { s' with
        processed := s.processed
        failed := s.failed
        unusable := s.unusable
        failures := s.failures } ∧
      s.processed = rs.length ∧ s.failed = rs.countP (·.failure.isSome) ∧
      s.unusable = rs.countP (fun r => r.failure.isNone && !r.isUsable) ∧
      s.failures.total = rs.countP (·.failure.isSome) ∧
      ∀ f n, ⟨f, n⟩ ∈ s.failures.entries ↔ n = rs.countP (·.failure = some f) ∧ n ≠ 0 := by
  obtain ⟨hsame, hanswers⟩ := Engine.sameWork_fed e rs
  rw [Engine.fed_eq_filter] at hsame hanswers
  refine ⟨fun p hp hunfit => Engine.accepted_of_unfit hp hunfit, hanswers, hsame.metrics, ?_⟩
  intro ending
  obtain ⟨results, hfinish⟩ :=
    Engine.finish_ok (concluded_stopped he (rs.filter Record.isFit)) ending
  have hfinish' := hsame.finish ending ending
  rw [hfinish, Except.map] at hfinish'
  obtain ⟨hprocessed, hfailed, hunusable, _⟩ := Engine.counts_after e rs
  have hnew : e.processed = 0 ∧ e.failed = 0 ∧ e.unusable = 0 := by
    rw [(Engine.withSelection_ok he).2.2]
    exact ⟨rfl, rfl, rfl⟩
  rw [hnew.1, Nat.zero_add] at hprocessed
  rw [hnew.2.1, Nat.zero_add] at hfailed
  rw [hnew.2.2, Nat.zero_add] at hunusable
  have hclass : rs.countP (fun r => Engine.classify r = .unusable) =
      rs.countP (fun r => r.failure.isNone && !r.isUsable) := by
    apply List.countP_congr
    intro r _
    rw [decide_eq_true_eq, Engine.classify]
    cases r.failure with
    | some f => simp
    | none => cases r.isUsable <;> simp
  obtain ⟨htotal, hentries⟩ := reportAt_after he rs ending
  exact ⟨_, _, hfinish', hfinish, rfl, rfl, rfl, rfl, hprocessed, hfailed,
    hunusable.trans hclass, htotal, hentries⟩

/-- All four kinds of records under the policy that aborts, which refuses the last one. -/
theorem unfit_inert_mixed :
    ∃ e, Engine.withSelection catalog catalog.tags { Settings.default with policy := .abort } =
        .ok e ∧
      (e.answers Engine.mixed).filter (·.1.isFit) = e.answers (Engine.mixed.drop 2) ∧
      ∃ s s', (e.after Engine.mixed).finish .completed = .ok s ∧
        (e.after (Engine.mixed.drop 2)).finish .completed = .ok s' ∧ s.values = s'.values ∧
        s.failures.total = 1 := by
  refine ⟨_, rfl, ?_⟩
  obtain ⟨_, hanswers, _, hsummaries⟩ := @unfit_inert catalog.tags
    { Settings.default with policy := .abort } _ rfl Engine.mixed
  obtain ⟨s, s', hs, hs', hvalues, _, _, _, _, _, _, htotal, _⟩ := hsummaries .completed
  exact ⟨hanswers, s, s', hs, hs', hvalues, htotal⟩

end Standard
end BenchMetrics
