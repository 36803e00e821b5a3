import BenchMetrics.Proofs.Order.Resolution
import BenchMetrics.Proofs.Run.Feeding
import BenchMetrics.Proofs.Tally.Failure
import BenchMetrics.Metric.Standard

/-! The course of a run. What an engine has become after records, when it skips what a metric
rejects, is said outright: the counts of the three classes of records, the metrics after the
records that were fed, and the tally of what was refused. -/
namespace BenchMetrics
open Accumulator

namespace Engine

/-- An engine after records, going on after errors. -/
def after (e : Engine) (rs : List Record) : Engine := rs.foldl (fun e r => (e.process r).1) e

theorem after_snoc (e : Engine) (rs : List Record) (r : Record) :
    e.after (rs ++ [r]) = ((e.after rs).process r).1 := by
  rw [after, List.foldl_append]
  rfl

/-- The records that reach the metrics. -/
def fed (rs : List Record) : List Record := rs.filter fun r => classify r = .fed

theorem fed_snoc (rs : List Record) (r : Record) :
    fed (rs ++ [r]) = fed rs ++ if classify r = .fed then [r] else [] := by
  rw [fed, List.filter_append]
  by_cases h : classify r = .fed <;> simp [fed, h]

theorem classify_eq_failed {r : Record} {f : Failure} :
    classify r = .failed f ↔ r.failure = some f := by
  unfold classify
  cases r.failure with
  | none => by_cases hu : r.isUsable <;> simp [hu]
  | some g => simp

theorem failure_eq_none {r : Record} (h : ∀ f, classify r ≠ .failed f) : r.failure = none := by
  cases hf : r.failure with
  | none => rfl
  | some f => exact absurd (classify_eq_failed.mpr hf) (h f)

/-- The tags that refuse, record by record. -/
def refused (ms : List Accumulator) (fs : List Record) : List Tag :=
  fs.flatMap fun r => refusing r [] ms

/-- An engine to which nothing has been fed, over metrics that can take what they are offered. -/
structure Fresh (e : Engine) : Prop where
  proper : ∀ a ∈ e.metrics, a.Proper
  rejections : e.rejections = .empty
  failures : e.failures = .empty
  processed : e.processed = 0
  failed : e.failed = 0
  unusable : e.unusable = 0

/-- What a run over `rs` makes of the engine `e₀`. -/
structure Reached (e₀ : Engine) (rs : List Record) (e : Engine) : Prop where
  settings : e.settings = e₀.settings
  order : e.order = e₀.order
  metrics : e.metrics = settled (fed rs) [] e₀.metrics
  rejections : e.rejections = (refused e₀.metrics (fed rs)).foldl tally .empty
  failures : e.failures = .ofFailures (rs.filterMap Record.failure)
  processed : e.processed = rs.length
  failed : e.failed = rs.countP (·.failure.isSome)
  unusable : e.unusable = rs.countP fun r => classify r = .unusable

theorem Fresh.reached {e : Engine} (h : e.Fresh) : Reached e [] e where
  settings := rfl
  order := rfl
  metrics := (settled_nil (fun a ha => (h.proper a ha).isNew) []).symm
  rejections := h.rejections
  failures := h.failures
  processed := h.processed
  failed := h.failed
  unusable := h.unusable

/-- One call: it is accepted, and the run has reached one record more. -/
theorem Reached.process {e₀ e : Engine} {rs : List Record} (h : Reached e₀ rs e)
    (hp : ∀ a ∈ e₀.metrics, a.Proper) (hskip : e₀.settings.policy = .skip) (r : Record) :
    (e.process r).2 = .ok () ∧ Reached e₀ (rs ++ [r]) (e.process r).1 := by
  have hlength : e.processed + 1 = (rs ++ [r]).length := by
    rw [h.processed, List.length_append, List.length_singleton]
  cases hc : classify r with
  | failed f =>
    have hf : r.failure = some f := classify_eq_failed.mp hc
    have hfed : fed (rs ++ [r]) = fed rs := by simp [fed_snoc, hc]
    have hfailures : (rs ++ [r]).filterMap Record.failure = rs.filterMap Record.failure ++ [f] := by
      simp [hf]
    simp only [Engine.process, hc]
    refine ⟨trivial, ⟨h.settings, h.order, ?_, ?_, ?_, hlength, ?_, ?_⟩⟩
    · rw [hfed]
      exact h.metrics
    · rw [hfed]
      exact h.rejections
    · rw [hfailures, FailureTally.ofFailures_snoc, ← h.failures]
    · simp [h.failed, hf]
    · simp [h.unusable, hc]
  | unusable =>
    have hf : r.failure = none := failure_eq_none (by simp [hc])
    have hfed : fed (rs ++ [r]) = fed rs := by simp [fed_snoc, hc]
    simp only [Engine.process, hc]
    refine ⟨trivial, ⟨h.settings, h.order, ?_, ?_, ?_, hlength, ?_, ?_⟩⟩
    · rw [hfed]
      exact h.metrics
    · rw [hfed]
      exact h.rejections
    · simp [h.failures, hf]
    · simp [h.failed, hf]
    · simp [h.unusable, hc]
  | fed =>
    -- the pass over the metrics is not stopped, and leaves them with one slot more
    have hf : r.failure = none := failure_eq_none (by simp [hc])
    have hfed : fed (rs ++ [r]) = fed rs ++ [r] := by simp [fed_snoc, hc]
    have hpass := pass_settled hp (fed rs) r
    simp only [Engine.process, hc, h.settings, hskip, h.metrics, hpass]
    refine ⟨trivial, ⟨rfl, h.order, ?_, ?_, ?_, hlength, ?_, ?_⟩⟩
    · rw [hfed]
    · simp [hfed, refused, h.rejections]
    · simp [h.failures, hf]
    · simp [h.failed, hf]
    · simp [h.unusable, hc]

theorem Fresh.reached_after {e : Engine} (h : e.Fresh) (hskip : e.settings.policy = .skip)
    (rs : List Record) : Reached e rs (e.after rs) := by
  induction rs using List.reverseRecOn with
  | nil => exact h.reached
  | append_singleton rs r ih =>
    rw [after_snoc]
    exact (ih.process h.proper hskip r).2

theorem Fresh.process_ok {e : Engine} (h : e.Fresh) (hskip : e.settings.policy = .skip)
    (rs : List Record) (r : Record) : ((e.after rs).process r).2 = .ok () :=
  ((h.reached_after hskip rs).process h.proper hskip r).1

theorem mapM_ok_forall₂ {α β ε : Type} {f : α → Except ε β} {xs : List α} {ys : List β}
    (h : xs.mapM f = .ok ys) : List.Forall₂ (fun x y => f x = .ok y) xs ys := by
  induction xs generalizing ys with
  | nil =>
    cases h
    exact .nil
  | cons x xs ih =>
    rw [List.mapM_cons] at h
    cases hx : f x with
    | error e => simp [hx, bind, Except.bind] at h
    | ok y =>
      cases hxs : xs.mapM f with
      | error e => simp [hx, hxs, bind, Except.bind] at h
      | ok zs =>
        simp only [hx, hxs, bind, Except.bind, pure, Except.pure, Except.ok.injEq] at h
        exact h ▸ .cons hx (ih hxs)

/-- What building an engine comes down to. -/
theorem withSelection_ok {c : Catalog} {selection : List Tag} {settings : Settings} {e : Engine}
    (h : withSelection c selection settings = .ok e) :
    EvaluationOrder.Arranged c (selection.filter (kept c settings)) e.order ∧
      freshMetrics c e.order = .ok e.metrics ∧
      e = ⟨settings, e.order, e.metrics, .empty, .empty, 0, 0, 0⟩ := by
  simp only [withSelection] at h
  split at h
  · -- everything selected needs a stream
    cases h
  cases hres : EvaluationOrder.resolve c (selection.filter (kept c settings)) with
  | error x => simp [hres, bind, Except.bind] at h
  | ok order =>
    cases hms : freshMetrics c order with
    | error x => simp [hres, hms, bind, Except.bind] at h
    | ok ms =>
      simp only [hres, hms, bind, Except.bind, Except.ok.injEq] at h
      subst h
      exact ⟨EvaluationOrder.arranged_of_resolve hres, hms, rfl⟩

end Engine

/-- A catalog whose metrics start with nothing, and of which those that take records keep the
descriptor they are registered with and are not derived after the records. -/
structure Catalog.Proper (c : Catalog) : Prop where
  isNew : ∀ d ∈ c.definitions, d.fresh.cell.IsNew
  own : ∀ d ∈ c.definitions,
    d.descriptor.stage.takesRecords ∨ d.fresh.descriptor.stage.takesRecords →
      d.fresh.descriptor = d.descriptor ∧ d.fresh.cell.takesRecords

theorem Standard.catalog_proper : Standard.catalog.Proper where
  isNew := by
    simp [Standard.catalog, Standard.definitions, Standard.groups, Standard.latencies,
      Standard.lengths, Standard.spans, Standard.throughputs, Standard.define, Cell.IsNew,
      Accumulator.series, Accumulator.fold, Accumulator.timestamps, Accumulator.derived,
      Accumulator.rate]
  own := by
    simp [Standard.catalog, Standard.definitions, Standard.groups, Standard.latencies,
      Standard.lengths, Standard.spans, Standard.throughputs, Standard.define,
      Cell.takesRecords, Accumulator.series, Accumulator.fold, Accumulator.timestamps,
      Accumulator.derived, Accumulator.rate, Standard.timeOf, Standard.amountOf,
      Stage.takesRecords]

namespace Engine

/-- The metrics of a new engine, in evaluation order: each as its definition makes it. -/
theorem metrics_of_withSelection {c : Catalog} {selection : List Tag} {settings : Settings}
    {e : Engine} (h : withSelection c selection settings = .ok e) :
    List.Forall₂ (fun d a => ∃ definition, c.get? d.tag = some definition ∧
      definition.descriptor = d ∧ definition.fresh = a) e.order e.metrics := by
  obtain ⟨harr, hms, _⟩ := withSelection_ok h
  have hboth := (List.forall₂_and_left _ _).mpr ⟨harr.registered, mapM_ok_forall₂ hms⟩
  refine hboth.imp ?_
  intro d a hda
  obtain ⟨⟨definition, hget, hd⟩, hfresh⟩ := hda
  simp only [hget, Except.ok.injEq] at hfresh
  exact ⟨definition, hget, hd, hfresh⟩

theorem forall₂_right {α β : Type} {R : α → β → Prop} {xs : List α} {ys : List β}
    (h : List.Forall₂ R xs ys) {y : β} (hy : y ∈ ys) : ∃ x ∈ xs, R x y := by
  induction h with
  | nil => cases hy
  | cons hxy _ ih =>
    rcases List.mem_cons.mp hy with rfl | hy
    · exact ⟨_, .head _, hxy⟩
    · obtain ⟨x, hx, hxy⟩ := ih hy
      exact ⟨x, .tail _ hx, hxy⟩

theorem fresh_of_withSelection {c : Catalog} (hc : c.Proper) {selection : List Tag}
    {settings : Settings} {e : Engine} (h : withSelection c selection settings = .ok e) :
    e.Fresh ∧ e.settings = settings := by
  obtain ⟨_, _, he⟩ := withSelection_ok h
  refine ⟨⟨?_, by rw [he], by rw [he], by rw [he], by rw [he], by rw [he]⟩, by rw [he]⟩
  intro a ha
  obtain ⟨d, _, definition, hget, _, rfl⟩ := forall₂_right (metrics_of_withSelection h) ha
  have hmem := (EvaluationOrder.mem_of_get? hget).1
  exact ⟨hc.isNew definition hmem, fun hs => (hc.own definition hmem (Or.inr hs)).2⟩

/-- Metrics that take records stand under distinct tags. -/
theorem nodup_of_withSelection {c : Catalog} (hc : c.Proper) {selection : List Tag}
    {settings : Settings} {e : Engine} (h : withSelection c selection settings = .ok e) :
    ((e.metrics.filter (·.descriptor.stage.takesRecords)).map (·.tag)).Nodup := by
  have hsub : ((e.metrics.filter (·.descriptor.stage.takesRecords)).map (·.tag)).Sublist
      (EvaluationOrder.tagsOf e.order) := by
    have hms := metrics_of_withSelection h
    generalize e.order = order, e.metrics = ms at hms ⊢
    induction hms with
    | nil => exact .slnil
    | @cons d a order ms hda _ ih =>
      obtain ⟨definition, hget, rfl, rfl⟩ := hda
      have hmem := (EvaluationOrder.mem_of_get? hget).1
      by_cases hs : definition.fresh.descriptor.stage.takesRecords
      · have htag : definition.fresh.tag = definition.descriptor.tag :=
          congrArg Descriptor.tag (hc.own definition hmem (Or.inr hs)).1
        simp only [List.filter_cons, hs, ↓reduceIte, List.map_cons, htag]
        exact ih.cons_cons _
      · simp only [List.filter_cons, hs]
        exact ih.cons _
  exact (withSelection_ok h).1.distinct.sublist hsub

/-- Where metrics start under the descriptors they are registered with, an engine evaluates one for
each descriptor of its order. -/
theorem map_descriptor_of_withSelection {c : Catalog}
    (hown : ∀ d ∈ c.definitions, d.fresh.descriptor = d.descriptor) {selection : List Tag}
    {settings : Settings} {e : Engine} (h : withSelection c selection settings = .ok e) :
    e.metrics.map (·.descriptor) = e.order := by
  have hms := metrics_of_withSelection h
  generalize e.order = order, e.metrics = ms at hms ⊢
  induction hms with
  | nil => rfl
  | cons hda _ ih =>
    obtain ⟨definition, hget, rfl, rfl⟩ := hda
    rw [List.map_cons, ih, hown definition (EvaluationOrder.mem_of_get? hget).1]

end Engine

namespace Standard

/-- Each standard metric starts from an accumulator under its own descriptor. -/
theorem fresh_descriptor : ∀ d ∈ catalog.definitions, d.fresh.descriptor = d.descriptor := by
  simp [catalog, definitions, groups, latencies, lengths, spans, throughputs, define,
    Accumulator.series, Accumulator.fold, Accumulator.timestamps, Accumulator.derived,
    Accumulator.rate]

variable {selection : List Tag} {settings : Settings} {e : Engine}

/-- A metric of an engine over standard metrics is the one that is registered. -/
theorem get?_tag (he : Engine.withSelection catalog selection settings = .ok e)
    {a : Accumulator} (ha : a ∈ e.metrics) : catalog.get? a.tag = some ⟨a.descriptor, a⟩ := by
  obtain ⟨d, _, definition, hget, rfl, rfl⟩ :=
    Engine.forall₂_right (Engine.metrics_of_withSelection he) ha
  have hd := fresh_descriptor definition (EvaluationOrder.mem_of_get? hget).1
  have htag : definition.fresh.tag = definition.descriptor.tag := congrArg Descriptor.tag hd
  rw [htag, hget, hd]

theorem map_descriptor (he : Engine.withSelection catalog selection settings = .ok e) :
    e.metrics.map (·.descriptor) = e.order :=
  Engine.map_descriptor_of_withSelection fresh_descriptor he

theorem nodup_tags (he : Engine.withSelection catalog selection settings = .ok e) :
    (e.metrics.map (·.tag)).Nodup := by
  have h := (Engine.withSelection_ok he).1.distinct
  rw [← map_descriptor he, List.map_map] at h
  exact h

end Standard
end BenchMetrics
