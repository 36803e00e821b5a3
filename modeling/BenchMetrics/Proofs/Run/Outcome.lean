import BenchMetrics.Proofs.Run.Independence
import BenchMetrics.Proofs.Run.Inertness

/-! What a run ends with, metric by metric. The pass over the summary metrics leaves a view behind
in which each metric stands as that same view makes it. The summary gives the values that stand
there, and counts what the records were rejected for and what could not be derived. -/
namespace BenchMetrics
open Accumulator EvaluationOrder

/-- What a formula has come to: a number that is not rejected, or nothing and one rejection. -/
structure Summary.Derives (s : Summary) (t : Tag) (result : Except MetricError Float) : Prop where
  value : s.value? t.text = some (result.toOption.elim .unset .scalar)
  rejections : s.rejectionsOf t.text = if result.isOk then 0 else 1

/-- What is demanded of a metric that is found. -/
theorem View.demand_of_find? {α : Type} {v : View} {t : Tag} {x : Exposed}
    (h : v.find? t = some x) (owner : Tag) (read : Exposed → Option α) :
    v.demand owner t read = (read x).elim (.error (.missingValue owner t)) .ok := by
  rw [View.demand, h, Option.bind_some]
  cases read x <;> rfl

namespace Accumulator

variable {a : Accumulator} {view : View}

theorem conclude_of_takesRecords (hs : a.descriptor.stage.takesRecords) :
    conclude view a = (a, none) := by
  have hnot : a.descriptor.stage ≠ .summary := by
    intro hsummary
    rw [hsummary] at hs
    cases hs
  rw [conclude, if_neg hnot]

theorem conclude_of_derived {formula : View → Except MetricError Float}
    (hs : a.descriptor.stage = .summary) (hcell : a.cell = .derived formula none) :
    (conclude view a).1.exposed = ⟨a.tag, (formula view).toOption.elim .unset .scalar, none⟩ ∧
      ∀ err, (conclude view a).2 = some err ↔ formula view = .error err := by
  rw [conclude, if_pos hs, update_eq, hcell]
  -- the cell holds nothing yet, so that it still holds nothing where the formula fails
  cases hv : formula view with
  | ok x =>
    simp only [Cell.update, hv]
    refine ⟨rfl, fun err => ?_⟩
    simp
  | error missing =>
    simp only [Cell.update, hv]
    refine ⟨rfl, fun err => ?_⟩
    simp

end Accumulator

namespace Engine

/-- What the metrics show under a tag. -/
def shown? (e : Engine) (t : Tag) : Option Exposed := View.find? (e.metrics.map exposed) t

def valueOf (e : Engine) (t : Tag) : Option Value := (e.shown? t).map (·.value)

def timestampOf (e : Engine) (t : Tag) : Option Int64 := (e.shown? t).bind (·.timestamp)

/-- The end of a run: the view that the pass over the summary metrics leaves behind, and the
summary. -/
structure Ends (e : Engine) (whole : View) (s : Summary) : Prop where
  found : ∀ a ∈ e.metrics, whole.find? a.tag = some (conclude whole a).1.exposed
  value : ∀ a ∈ e.metrics, s.value? a.tag.text = some (conclude whole a).1.value
  rejections : ∀ a ∈ e.metrics, s.rejectionsOf a.tag.text =
    e.rejectionsOf a.tag + (noted a (conclude whole a).2).count a.tag

section
variable {needs : Tag → Tag → Prop} {e : Engine} {ending : Ending} {s : Summary} {whole : View}
  {a : Accumulator}

theorem shown?_of_mem (hn : (e.metrics.map (·.tag)).Nodup) (ha : a ∈ e.metrics) :
    e.shown? a.tag = some a.exposed := by
  have hkeys : (e.metrics.map exposed).map (·.tag) = e.metrics.map (·.tag) := by
    rw [List.map_map]
    rfl
  exact find?_of_distinct (hkeys ▸ hn) (List.mem_map_of_mem ha)

theorem exists_ends (hms : Wired needs e.metrics) (hs : e.finish ending = .ok s) :
    ∃ whole, e.Ends whole s := by
  obtain ⟨hdone, hvalues, hrejections, _⟩ := finish_eq_ok hs
  rw [summarizeFrom_eq_sweep] at hdone hvalues hrejections
  obtain ⟨hmetrics, hrejected⟩ :=
    sweep_settles conclude_keeps conclude_confined hms.ahead hms.confined hdone rfl
  have hkept := map_tag_of_emptied (map_emptied_sweep conclude_keeps false [] e.metrics)
  rw [List.nil_append] at hmetrics hrejected
  have hsettled : Settled conclude e.metrics ((sweep false conclude [] e.metrics).metrics.map
      exposed) := congrArg (List.map exposed) hmetrics
  rw [hmetrics] at hvalues hkept
  rw [hrejected] at hrejections
  generalize (sweep false conclude [] e.metrics).metrics.map exposed = whole at *
  have htag : ∀ a : Accumulator, (conclude whole a).1.tag = a.tag :=
    fun a => tag_of_emptied (conclude_keeps whole a)
  refine ⟨whole, fun a ha => hsettled.find? conclude_keeps hms.distinct ha, ?_, ?_⟩
  · intro a ha
    have hmem : (conclude whole a).1 ∈ e.metrics.map fun a => (conclude whole a).1 :=
      List.mem_map_of_mem (f := fun a => (conclude whole a).1) ha
    have hvalue := get?_valuesOf (hkept ▸ hms.distinct) hmem
    rw [htag] at hvalue
    rw [Summary.value?, hvalues, hvalue]
  · intro a ha
    rw [Summary.rejectionsOf, hrejections, getD_foldl_tally, count_noted hms.distinct _ ha]
    rfl

/-- A metric that takes records ends as the records have left it. -/
theorem Ends.of_takesRecords (h : e.Ends whole s) (hn : (e.metrics.map (·.tag)).Nodup)
    (ha : a ∈ e.metrics) (hs : a.descriptor.stage.takesRecords) :
    whole.find? a.tag = e.shown? a.tag ∧ s.value? a.tag.text = e.valueOf a.tag ∧
      s.rejectionsOf a.tag.text = e.rejectionsOf a.tag := by
  have hfound := h.found a ha
  have hvalue := h.value a ha
  have hrejections := h.rejections a ha
  rw [conclude_of_takesRecords hs] at hfound hvalue hrejections
  rw [valueOf, shown?_of_mem hn ha]
  exact ⟨hfound, hvalue, hrejections⟩

/-- A metric that is derived ends with what its formula makes of the whole view. -/
theorem Ends.of_derived (h : e.Ends whole s) (ha : a ∈ e.metrics)
    (hs : a.descriptor.stage = .summary) {formula : View → Except MetricError Float}
    (hcell : a.cell = .derived formula none)
    (hfatal : ∀ err, formula whole = .error err → err.isFatal = false)
    (hnone : e.rejectionsOf a.tag = 0) :
    whole.find? a.tag = some ⟨a.tag, (formula whole).toOption.elim .unset .scalar, none⟩ ∧
      s.Derives a.tag (formula whole) := by
  obtain ⟨hexposed, hmet⟩ := @conclude_of_derived a whole formula hs hcell
  refine ⟨hexposed ▸ h.found a ha, ?_, ?_⟩
  · rw [h.value a ha]
    exact congrArg (fun x : Exposed => some x.value) hexposed
  · rw [h.rejections a ha, hnone, Nat.zero_add]
    cases hv : formula whole with
    | ok x =>
      have hquiet : (conclude whole a).2 = none := by
        cases hc : (conclude whole a).2 with
        | none => rfl
        | some err =>
          rw [(hmet err).mp hc] at hv
          cases hv
      rw [hquiet]
      rfl
    | error err =>
      rw [(hmet err).mpr hv, noted, Option.any_some, hfatal err hv]
      simp [Except.isOk, Except.toBool]

end
end Engine

namespace Standard

variable {selection : List Tag} {settings : Settings} {e : Engine} {rs : List Record} {t : Tag}
  {d : Definition} {whole : View} {s : Summary}

theorem nodup_after (he : Engine.withSelection catalog selection settings = .ok e)
    (rs : List Record) : ((e.after rs).metrics.map (·.tag)).Nodup := by
  rw [map_tag_of_emptied (Engine.map_emptied_after e rs)]
  exact nodup_tags he

/-- What is selected is in the order, unless it needs streams and there are none. -/
theorem mem_order_of_selected (he : Engine.withSelection catalog selection settings = .ok e)
    (ht : t ∈ selection) (hkept : Engine.kept catalog settings t) : t ∈ tagsOf e.order := by
  rw [(Engine.withSelection_ok he).1.mem_iff]
  exact ⟨t, List.mem_filter.mpr ⟨ht, hkept⟩, .refl⟩

theorem mem_order_of_required (he : Engine.withSelection catalog selection settings = .ok e)
    (ht : t ∈ tagsOf e.order) {u : Tag} (hu : Requires catalog t u) : u ∈ tagsOf e.order := by
  have harr := (Engine.withSelection_ok he).1
  rw [harr.mem_iff] at ht ⊢
  exact ht.step hu

/-- Each metric is there after a run, as the fed records have left it. -/
theorem mem_after (he : Engine.withSelection catalog selection settings = .ok e)
    (hskip : settings.policy = .skip) (rs : List Record) {before rest : List Accumulator}
    {a : Accumulator} (hms : e.metrics = before ++ a :: rest) :
    a.after before (Engine.fed rs) ∈ (e.after rs).metrics := by
  rw [(reached he hskip rs).metrics, hms]
  exact after_mem_settled (Engine.fed rs) before a rest

/-- A run over standard metrics comes to an end. -/
theorem ends_after (he : Engine.withSelection catalog selection settings = .ok e)
    (rs : List Record) (ending : Ending) :
    ∃ whole s, (e.after rs).finish ending = .ok s ∧ (e.after rs).Ends whole s := by
  obtain ⟨results, hs⟩ := Engine.finish_ok (concluded_stopped he rs) ending
  have hwired := Engine.wired_after (Engine.wired_of_withSelection catalog_confined he) rs
  obtain ⟨whole, hends⟩ := Engine.exists_ends hwired hs
  exact ⟨whole, _, hs, hends⟩

/-- No record is rejected for a summary metric. -/
theorem rejectionsOf_summary (he : Engine.withSelection catalog selection settings = .ok e)
    (hskip : settings.policy = .skip) (hd : catalog.get? t = some d)
    (hs : d.fresh.descriptor.stage = .summary) (rs : List Record) :
    (e.after rs).rejectionsOf t = 0 := by
  have hnot : t ∉ Engine.refused e.metrics (Engine.fed rs) := by
    intro hmem
    obtain ⟨r, _, hrefusing⟩ := List.mem_flatMap.mp hmem
    obtain ⟨b, hb, rfl⟩ := List.mem_map.mp (Engine.mem_of_refusing hrefusing)
    obtain ⟨hb, htakes⟩ := List.mem_filter.mp hb
    -- it would be this metric that took the record
    rw [get?_tag he hb, Option.some.injEq] at hd
    have hsummary : b.descriptor.stage = .summary := by
      rw [← hd] at hs
      exact hs
    rw [hsummary] at htakes
    cases htakes
  rw [Engine.rejectionsOf, (reached he hskip rs).rejections, Engine.getD_foldl_tally,
    List.count_eq_zero_of_not_mem hnot]
  rfl

section
variable (he : Engine.withSelection catalog selection settings = .ok e)
  (hskip : settings.policy = .skip) (ht : t ∈ tagsOf e.order) (hd : catalog.get? t = some d)
include he hskip ht hd

/-- After a run that skips, a metric that takes records is as the fed records have left it, and
its tally counts those of them that are worth nothing to it. -/
theorem recorded (hs : d.fresh.descriptor.stage.takesRecords) (rs : List Record) : ∃ before,
    (e.after rs).shown? t = some (d.fresh.after before (Engine.fed rs)).exposed ∧
      (e.after rs).rejectionsOf t =
        (Engine.fed rs).countP fun r => (d.fresh.worth before r).isNone := by
  obtain ⟨before, rest, hms⟩ := exists_registered he ht hd
  have hshown := Engine.shown?_of_mem (nodup_after he rs) (mem_after he hskip rs hms)
  have haccounts :=
    (reached he hskip rs).accounts (Engine.nodup_of_withSelection catalog_proper he) hms hs
  rw [after_tag, tag_fresh hd] at hshown
  rw [tag_fresh hd] at haccounts
  exact ⟨before, hshown, haccounts.counted⟩

theorem ends_recorded (hs : d.fresh.descriptor.stage.takesRecords)
    (h : (e.after rs).Ends whole s) : whole.find? t = (e.after rs).shown? t ∧
      s.value? t.text = (e.after rs).valueOf t ∧
      s.rejectionsOf t.text = (e.after rs).rejectionsOf t := by
  obtain ⟨before, rest, hms⟩ := exists_registered he ht hd
  have htakes : (d.fresh.after before (Engine.fed rs)).descriptor.stage.takesRecords := by
    rw [after_descriptor]
    exact hs
  have hends := h.of_takesRecords (nodup_after he rs) (mem_after he hskip rs hms) htakes
  rw [after_tag, tag_fresh hd] at hends
  exact hends

theorem ends_derived (hs : d.fresh.descriptor.stage = .summary)
    {formula : View → Except MetricError Float} (hcell : d.fresh.cell = .derived formula none)
    (h : (e.after rs).Ends whole s) :
    whole.find? t = some ⟨t, (formula whole).toOption.elim .unset .scalar, none⟩ ∧
      s.Derives t (formula whole) := by
  obtain ⟨before, rest, hms⟩ := exists_registered he ht hd
  have hfatal : ∀ err, formula whole = .error err → err.isFatal = false := by
    intro err herr
    obtain ⟨formula', hcell', hblind⟩ := (orderFree (mem_of_get? hd).1).summary hs
    rw [hcell, Cell.derived.injEq] at hcell'
    rw [hcell'.1] at herr
    exact hblind.not_fatal herr
  -- the records have left it as it was
  have hmem := mem_after he hskip rs hms
  have hnot : ¬ d.fresh.descriptor.stage.takesRecords := by
    rw [hs]
    exact Bool.false_ne_true
  rw [Accumulator.after, if_neg hnot] at hmem
  have hnone : (e.after rs).rejectionsOf d.fresh.tag = 0 := by
    rw [tag_fresh hd]
    exact rejectionsOf_summary he hskip hd hs rs
  have hends := h.of_derived hmem hs hcell hfatal hnone
  rw [tag_fresh hd] at hends
  exact hends

end
end Standard
end BenchMetrics
