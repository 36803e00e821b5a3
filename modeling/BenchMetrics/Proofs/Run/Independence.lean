import BenchMetrics.Proofs.Run.Completion
import BenchMetrics.Proofs.Run.Locality

/-! A metric and the other metrics of a run. What a run that skips ends with for one metric depends
on the records and on what that metric needs; which other metrics are selected, in which order
they are evaluated, and in which order all of them are registered makes no difference. -/
namespace BenchMetrics
open Accumulator EvaluationOrder Relation

section
variable {S : Tag → Prop} {v w : View} {owner : Tag}

theorem View.AgreeOn.total (h : AgreeOn S v w) {source : Tag} (hs : S source) :
    Measure.total owner source v = Measure.total owner source w := by
  rw [Measure.total, Measure.total, h.series hs]

theorem View.AgreeOn.span (h : AgreeOn S v w) {first last : Tag} (hf : S first) (hl : S last) :
    Measure.span owner first last v = Measure.span owner first last w := by
  have hfirst : v.timestamp owner first = w.timestamp owner first := h.demand hf _
  have hlast : v.timestamp owner last = w.timestamp owner last := h.demand hl _
  rw [Measure.span, Measure.span, hfirst, hlast]

theorem View.AgreeOn.perSecond (h : AgreeOn S v w) {amount duration : Tag} (ha : S amount)
    (hd : S duration) :
    Measure.perSecond owner amount duration v = Measure.perSecond owner amount duration w := by
  have hamount : v.scalar owner amount = w.scalar owner amount := h.demand ha _
  have hduration : v.scalar owner duration = w.scalar owner duration := h.demand hd _
  rw [Measure.perSecond, Measure.perSecond, hamount, hduration]

end

/-- A catalog whose metrics start under the tag that they are registered with, take records if
records are offered to them, and read no metrics but those that they require. -/
structure Catalog.Confined (c : Catalog) : Prop where
  tag : ∀ d ∈ c.definitions, d.fresh.tag = d.tag
  takes : ∀ d ∈ c.definitions, d.fresh.descriptor.stage.takesRecords → d.fresh.cell.takesRecords
  reads : ∀ d ∈ c.definitions, d.fresh.cell.ReadsOnly (· ∈ d.descriptor.required)

theorem Standard.catalog_confined : Standard.catalog.Confined where
  tag d hd := congrArg Descriptor.tag (fresh_descriptor d hd)
  takes d hd hs := (catalog_proper.own d hd (Or.inr hs)).2
  reads := by
    intro d hd
    simp only [catalog, definitions, groups, latencies, lengths, spans, throughputs, define,
      List.flatten_cons, List.flatten_nil, List.append_nil, List.cons_append, List.nil_append,
      List.mem_cons, List.not_mem_nil, or_false] at hd
    rcases hd with rfl | rfl | rfl | rfl | rfl | rfl | rfl | rfl | rfl | rfl | rfl | rfl | rfl | rfl
    -- those that compute from the record alone read nothing
    · trivial
    · trivial
    · trivial
    · trivial
    · trivial
    · trivial
    · exact fun v w h => h.total (.head _)
    · trivial
    · trivial
    · trivial
    · exact fun v w h => h.span (.head _) (.tail _ (.head _))
    · exact fun v w h => h.perSecond (.head _) (.tail _ (.head _))
    · exact fun v w h => h.perSecond (.head _) (.tail _ (.head _))
    · exact List.Mem.head _

namespace Catalog

variable {c c' : Catalog}

theorem Confined.of_perm (hc : c.Confined) (hp : c.definitions.Perm c'.definitions) :
    c'.Confined where
  tag d hd := hc.tag d (hp.mem_iff.mpr hd)
  takes d hd := hc.takes d (hp.mem_iff.mpr hd)
  reads d hd := hc.reads d (hp.mem_iff.mpr hd)

end Catalog

namespace Engine
open Catalog

section
variable {c c' : Catalog} {selection selection' : List Tag} {settings settings' : Settings}
  {e e' : Engine}

theorem map_tag_of_withSelection (hc : c.Confined)
    (he : withSelection c selection settings = .ok e) :
    e.metrics.map (·.tag) = tagsOf e.order := by
  have hms := metrics_of_withSelection he
  generalize e.order = order, e.metrics = ms at hms ⊢
  induction hms with
  | nil => rfl
  | cons hda _ ih =>
    obtain ⟨definition, hget, rfl, rfl⟩ := hda
    have htag : definition.fresh.tag = definition.descriptor.tag :=
      hc.tag definition (mem_of_get? hget).1
    rw [List.map_cons, ih, htag]
    rfl

/-- The order of a selection puts each metric behind those that it reads. -/
theorem wired_of_withSelection (hc : c.Confined)
    (he : withSelection c selection settings = .ok e) : Wired (Requires c) e.metrics := by
  obtain ⟨harr, _, _⟩ := withSelection_ok he
  have htags := map_tag_of_withSelection hc he
  have hsource : ∀ a ∈ e.metrics, ∃ d ∈ c.definitions, c.get? a.tag = some d ∧ d.fresh = a := by
    intro a ha
    obtain ⟨_, _, d, hget, rfl, rfl⟩ := forall₂_right (metrics_of_withSelection he) ha
    have hd := (mem_of_get? hget).1
    exact ⟨d, hd, (hc.tag d hd).symm ▸ hget, rfl⟩
  refine ⟨?_, ?_, ?_, ?_⟩
  · rw [htags]
    exact harr.distinct
  · intro front a rest hms t ht
    -- the descriptor at the place of the metric requires what the metric needs
    rw [hms, List.map_append, List.map_cons, tagsOf] at htags
    obtain ⟨before, after, horder, hbefore, hafter⟩ := List.map_eq_append_iff.mp htags.symm
    obtain ⟨d, _, rfl, hd, _⟩ := List.map_eq_cons_iff.mp hafter
    have hregistered := harr.registered d (by rw [horder]; simp)
    rw [← hd, requires_of_registered hregistered] at ht
    rw [List.nil_append, ← hbefore]
    exact harr.requiredFirst before d _ horder t ht
  · intro a ha
    obtain ⟨d, hd, hget, rfl⟩ := hsource a ha
    exact (hc.reads d hd).mono fun t ht => ⟨d, hget, ht⟩
  · intro a ha
    obtain ⟨d, hd, _, rfl⟩ := hsource a ha
    exact hc.takes d hd

end

section
variable {needs : Tag → Tag → Prop} {T : Tag → Prop} {e e' : Engine}

theorem wired_after (h : Wired needs e.metrics) (rs : List Record) :
    Wired needs (e.after rs).metrics :=
  h.of_emptied (map_emptied_after e rs)

end

section
variable {unit : TimeUnit} {ms : List Accumulator} {results : List MetricResult}

theorem map_tag_results
    (h : List.Forall₂ (fun a res => MetricResult.ofValue a.descriptor a.value unit = .ok res) ms
      results) : results.map (·.tag) = ms.map (·.tag.text) := by
  induction h with
  | nil => rfl
  | cons hb _ ih => rw [List.map_cons, ih, MetricResult.tag_of_ofValue hb, List.map_cons]; rfl

end

/-- What is behind a summary. -/
theorem finish_eq_ok {e : Engine} {ending : Ending} {s : Summary} (h : e.finish ending = .ok s) :
    (summarizeFrom [] e.metrics).stopped = none ∧
      s.values = valuesOf (summarizeFrom [] e.metrics).metrics ∧
      s.rejections = (summarizeFrom [] e.metrics).rejected.foldl tally e.rejections ∧
      List.Forall₂ (fun a res => MetricResult.ofValue a.descriptor a.value
        e.settings.displayUnit = .ok res) (summarizeFrom [] e.metrics).metrics s.results := by
  unfold finish at h
  cases hstopped : (summarizeFrom [] e.metrics).stopped with
  | some err =>
    simp only [hstopped] at h
    cases h
  | none =>
    simp only [hstopped] at h
    cases hresults : (summarizeFrom [] e.metrics).metrics.mapM fun a =>
        MetricResult.ofValue a.descriptor a.value e.settings.displayUnit with
    | error err => simp [hresults, bind, Except.bind] at h
    | ok results =>
      simp only [hresults, bind, Except.bind, Except.ok.injEq] at h
      rw [← h]
      exact ⟨rfl, rfl, rfl, mapM_ok_forall₂ hresults⟩

end Engine

namespace Engine

variable {needs : Tag → Tag → Prop} {T : Tag → Prop} {e e' : Engine}

end Engine

namespace Standard

end Standard
end BenchMetrics
