import BenchMetrics.Proofs.Run.Span

/-! How missing values are passed on. A summary metric has no number exactly if it is rejected, and
it is rejected for one of three reasons: a metric that it needs has no number, the last response
comes before the first request, or no time passed. The sum over a series is always there; a rate
over the span is there exactly if time passed. -/
namespace BenchMetrics
open Accumulator EvaluationOrder

namespace Summary.Derives

variable {s : Summary} {t : Tag} {result : Except MetricError Float}

theorem scalar_iff (h : s.Derives t result) {x : Float} :
    s.value? t.text = some (.scalar x) ↔ result = .ok x := by
  rw [h.value]
  cases result <;> simp [Except.toOption]

/-- Nothing is derived together with one rejection, a number together with none. -/
theorem value_iff (h : s.Derives t result) : s.rejectionsOf t.text ≤ 1 ∧
    (s.value? t.text = some .unset ↔ s.rejectionsOf t.text = 1) ∧
    ((∃ x, s.value? t.text = some (.scalar x)) ↔ s.rejectionsOf t.text = 0) := by
  rw [h.value, h.rejections]
  cases result <;> simp [Except.toOption, Except.isOk, Except.toBool]

end Summary.Derives

/-- A difference of times that can be measured from is positive if the first is earlier. -/
theorem sub_pos_of_inOpenRange {lo hi : Int64} (hlo : inOpenRange lo) (hhi : inOpenRange hi)
    (hlt : lo < hi) : 0 < hi - lo := by
  rw [Int64.lt_iff_toInt_lt] at hlt ⊢
  have hexact := toInt_sub_of_inOpenRange hhi hlo
  rw [hexact]
  show 0 < hi.toInt - lo.toInt
  omega

namespace Measure

variable {whole : View} {owner amount duration source : Tag} {x y : Exposed}

theorem exists_total (h : whole.find? source = some x) {slots : Array (Option Sample)}
    (hx : x.value = .series slots) (owner : Tag) : ∃ sum, total owner source whole = .ok sum := by
  have hseries : whole.series owner source = .ok slots := by
    rw [View.series, View.demand_of_find? h, hx]
    rfl
  rw [total, hseries]
  exact ⟨_, rfl⟩

/-- Without a positive duration there is no rate, whether or not there is an amount. -/
theorem exists_error_of_duration (h : whole.find? duration = some y)
    (hy : ∀ ns, y.value.scalar? = some ns → ns ≤ 0.0) (owner amount : Tag) :
    ∃ err, perSecond owner amount duration whole = .error err := by
  rw [perSecond]
  cases whole.scalar owner amount with
  | error err => exact ⟨err, rfl⟩
  | ok n =>
    rw [View.scalar, View.demand_of_find? h]
    cases hv : y.value.scalar? with
    | none => exact ⟨_, rfl⟩
    | some ns =>
      show ∃ err, (if ns ≤ 0.0 then _ else _) = Except.error err
      rw [if_pos (hy ns hv)]
      exact ⟨_, rfl⟩

theorem perSecond_of_found (hx : whole.find? amount = some x) (hy : whole.find? duration = some y)
    {n ns : Float} (hn : x.value.scalar? = some n) (hns : y.value.scalar? = some ns)
    (hpos : ¬ ns ≤ 0.0) (owner : Tag) :
    perSecond owner amount duration whole = .ok (n / (ns / nanosPerSecond)) := by
  rw [perSecond, View.scalar, View.scalar, View.demand_of_find? hx, View.demand_of_find? hy, hn,
    hns]
  exact if_neg hpos

/-- Over the span of a run, a rate is there exactly if time passed. The amount is needed only where
there is a span. -/
theorem perSecond_cases {rs : List Record} {first last : Option Int64}
    {result : Except MetricError Float} (hlasts : Lasts first last result)
    (hextent : Extent (ordered rs) first last)
    (hduration : whole.find? duration =
      some ⟨duration, result.toOption.elim .unset .scalar, none⟩) {P : Float → Prop}
    (hamount : ordered rs ≠ [] → ∃ x n, whole.find? amount = some x ∧
      x.value.scalar? = some n ∧ P n) (owner : Tag) :
    (∃ lo hi n, first = some lo ∧ last = some hi ∧ lo < hi ∧ 0 < hi - lo ∧ P n ∧
      result = .ok (nanosToFloat (hi - lo)) ∧ perSecond owner amount duration whole =
        .ok (n / (nanosToFloat (hi - lo) / nanosPerSecond))) ∨
    (∃ err, perSecond owner amount duration whole = .error err) ∧
      ¬ ∃ lo hi, first = some lo ∧ last = some hi ∧ lo < hi := by
  by_cases hpassed : ∃ lo hi, first = some lo ∧ last = some hi ∧ lo < hi
  · obtain ⟨lo, hi, rfl, rfl, hlt⟩ := hpassed
    obtain ⟨hlow, hhigh⟩ := hextent.ranges
    have hpos := sub_pos_of_inOpenRange hlow hhigh hlt
    have hok := hlasts.eq_ok_of_le (Int64.le_of_lt hlt)
    have hsome : ordered rs ≠ [] := by
      intro hnone
      cases hextent.first_none.mpr hnone
    obtain ⟨x, n, hx, hn, hP⟩ := hamount hsome
    rw [hok] at hduration
    exact Or.inl ⟨lo, hi, n, rfl, rfl, hlt, hpos, hP, hok,
      perSecond_of_found hx hduration hn rfl (not_nanosToFloat_le_zero hpos) owner⟩
  · refine Or.inr ⟨?_, hpassed⟩
    apply exists_error_of_duration hduration
    cases hlasts with
    | unanswered | reversed =>
      intro ns hns
      cases hns
    | @measured lo hi hfirst hlast hle =>
      -- no time passed
      have hsame : hi = lo := by
        apply Int64.le_antisymm _ hle
        exact Int64.not_lt.mp fun hlt => hpassed ⟨lo, hi, hfirst, hlast, hlt⟩
      intro ns hns
      have hzero : nanosToFloat (hi - lo) = ns := Option.some.inj hns
      rw [← hzero, hsame, Int64.sub_self, nanosToFloat_zero]
      decide +kernel

end Measure

/-- A rate of a run, the amount being the value under another tag. It is there exactly if time
passed between the first start and the last response, and is the amount over that time, which is
positive in nanoseconds and in seconds. -/
structure Rated (e : Engine) (s : Summary) (t amount : Tag) : Prop where
  scalar_iff : (∃ x, s.value? t.text = some (.scalar x)) ↔
    ∃ lo hi, e.timestampOf Standard.minRequestTimestamp = some lo ∧
      e.timestampOf Standard.maxResponseTimestamp = some hi ∧ lo < hi ∧
      s.value? Standard.benchmarkDuration.text = some (.scalar (nanosToFloat (hi - lo)))
  divided : ∀ x, s.value? t.text = some (.scalar x) → ∃ n ns,
    s.value? amount.text = some (.scalar n) ∧
    s.value? Standard.benchmarkDuration.text = some (.scalar ns) ∧
    0.0 < ns ∧ 0.0 < ns / nanosPerSecond ∧ x = n / (ns / nanosPerSecond)

namespace Standard

variable {selection : List Tag} {settings : Settings} {e : Engine} {rs : List Record}
  {whole : View} {s : Summary}

section
variable (he : Engine.withSelection catalog selection settings = .ok e)
  (hskip : settings.policy = .skip) (h : (e.after rs).Ends whole s)
include he hskip h

/-- The sum of the output tokens is there, also if no record has any. -/
theorem total_at_end (ht : totalOutputTokens ∈ tagsOf e.order) : ∃ sum,
    whole.find? totalOutputTokens = some ⟨totalOutputTokens, .scalar sum, none⟩ ∧
      s.value? totalOutputTokens.text = some (.scalar sum) := by
  have hsource : outputLength ∈ tagsOf e.order := mem_order_of_required he ht ⟨_, rfl, .head _⟩
  obtain ⟨_, hshown, _⟩ := recorded he hskip hsource rfl rfl rs
  have hfound := (ends_recorded he hskip hsource rfl rfl h).1.trans hshown
  obtain ⟨sum, hsum⟩ := Measure.exists_total hfound rfl totalOutputTokens
  obtain ⟨hwhole, hderives⟩ := ends_derived he hskip ht rfl rfl rfl h
  rw [hsum] at hwhole hderives
  exact ⟨sum, hwhole, hderives.value⟩

/-- The count is there if there is a span. -/
theorem count_at_end (ht : requestCount ∈ tagsOf e.order) (hsome : ordered rs ≠ []) :
    ∃ x n, whole.find? requestCount = some x ∧ x.value.scalar? = some n ∧
      s.value? requestCount.text = some (.scalar n) := by
  obtain ⟨hfound, hvalue, _⟩ := ends_recorded he hskip ht rfl rfl h
  have hcount := (requestCount_after he hskip rs ht).1
  rw [if_neg hsome] at hcount
  rw [hcount] at hvalue
  obtain ⟨x, hx, hxv⟩ := Option.map_eq_some_iff.mp hcount
  exact ⟨x, _, hfound.trans hx, by rw [hxv]; rfl, hvalue⟩

/-- A rate over the span, if there is an amount wherever there is a span. -/
theorem rated {t amount : Tag} (ht : t ∈ tagsOf e.order) {d : Definition}
    (hd : catalog.get? t = some d) (hs : d.fresh.descriptor.stage = .summary)
    (hcell : d.fresh.cell = .derived (Measure.perSecond t amount benchmarkDuration) none)
    (hspan : benchmarkDuration ∈ tagsOf e.order)
    (hamount : ordered rs ≠ [] → ∃ x n, whole.find? amount = some x ∧
      x.value.scalar? = some n ∧ s.value? amount.text = some (.scalar n)) :
    Rated (e.after rs) s t amount := by
  obtain ⟨result, hlasts, hfound, hduration⟩ := duration_at_end he hskip rs hspan h
  obtain ⟨_, hrate⟩ := ends_derived he hskip ht hd hs hcell h
  have hextent := (extent_after he hskip rs hspan).1
  rcases Measure.perSecond_cases hlasts hextent hfound hamount t with
    ⟨lo, hi, n, hlo, hhi, hlt, hpos, hn, rfl, hok⟩ | ⟨⟨err, herr⟩, hnot⟩
  · rw [hok] at hrate
    refine ⟨⟨fun _ => ⟨lo, hi, hlo, hhi, hlt, hduration.value⟩, fun _ => ⟨_, hrate.value⟩⟩, ?_⟩
    intro x hx
    rw [hrate.scalar_iff, Except.ok.injEq] at hx
    exact ⟨n, nanosToFloat (hi - lo), hn, hduration.value, nanosToFloat_pos hpos, seconds_pos hpos,
      hx.symm⟩
  · have hunset : ∀ x, s.value? t.text ≠ some (.scalar x) := by
      intro x hx
      rw [hrate.scalar_iff, herr] at hx
      cases hx
    refine ⟨⟨?_, ?_⟩, fun x hx => absurd hx (hunset x)⟩
    · intro hx
      obtain ⟨x, hx⟩ := hx
      exact absurd hx (hunset x)
    · intro hpassed
      obtain ⟨lo, hi, hlo, hhi, hlt, _⟩ := hpassed
      exact absurd ⟨lo, hi, hlo, hhi, hlt⟩ hnot

/-- Every summary metric comes to what its formula has derived. -/
theorem derives_of_summary {d : Descriptor} (hd : d ∈ e.order) (hs : d.stage = .summary) :
    ∃ result, s.Derives d.tag result := by
  obtain ⟨definition, hget, rfl⟩ := (Engine.withSelection_ok he).1.registered d hd
  have hmem := (mem_of_get? hget).1
  have hsummary : definition.fresh.descriptor.stage = .summary := by
    rw [fresh_descriptor definition hmem]
    exact hs
  obtain ⟨formula, hcell, _⟩ := (orderFree hmem).summary hsummary
  exact ⟨_, (ends_derived he hskip (List.mem_map_of_mem hd) hget hsummary hcell h).2⟩

end

/-- Failures go along the dependencies of the summary metrics, and nowhere else. A run that skips
ends, over any standard metrics and any records, with a sum of output tokens; with each of the
rates exactly if there is a duration and it is positive, so that nothing is divided by a duration
that is not; and every summary metric has nothing exactly if it is rejected once, and a number
exactly if it is not rejected. -/
theorem failures_propagate (he : Engine.withSelection catalog selection settings = .ok e)
    (hskip : settings.policy = .skip) (rs : List Record) (ending : Ending) :
    ∃ s, (e.after rs).finish ending = .ok s ∧
      (totalOutputTokens ∈ tagsOf e.order →
        ∃ sum, s.value? totalOutputTokens.text = some (.scalar sum)) ∧
      (requestThroughput ∈ tagsOf e.order →
        Rated (e.after rs) s requestThroughput requestCount) ∧
      (tokenThroughput ∈ tagsOf e.order →
        Rated (e.after rs) s tokenThroughput totalOutputTokens) ∧
      ∀ d ∈ e.order, d.stage = .summary →
        s.rejectionsOf d.tag.text ≤ 1 ∧
        (s.value? d.tag.text = some .unset ↔ s.rejectionsOf d.tag.text = 1) ∧
        ((∃ x, s.value? d.tag.text = some (.scalar x)) ↔ s.rejectionsOf d.tag.text = 0) := by
  obtain ⟨whole, s, hfinish, hends⟩ := ends_after he rs ending
  refine ⟨s, hfinish, ?_, ?_, ?_, ?_⟩
  · intro ht
    obtain ⟨sum, _, hsum⟩ := total_at_end he hskip hends ht
    exact ⟨sum, hsum⟩
  · intro ht
    have hcount : requestCount ∈ tagsOf e.order := mem_order_of_required he ht ⟨_, rfl, .head _⟩
    have hspan : benchmarkDuration ∈ tagsOf e.order :=
      mem_order_of_required he ht ⟨_, rfl, .tail _ (.head _)⟩
    exact rated he hskip hends ht rfl rfl rfl hspan (count_at_end he hskip hends hcount)
  · intro ht
    have htotal : totalOutputTokens ∈ tagsOf e.order :=
      mem_order_of_required he ht ⟨_, rfl, .head _⟩
    have hspan : benchmarkDuration ∈ tagsOf e.order :=
      mem_order_of_required he ht ⟨_, rfl, .tail _ (.head _)⟩
    obtain ⟨sum, hwhole, hsum⟩ := total_at_end he hskip hends htotal
    exact rated he hskip hends ht rfl rfl rfl hspan fun _ => ⟨_, sum, hwhole, rfl, hsum⟩
  · intro d hd hs
    obtain ⟨result, hderives⟩ := derives_of_summary he hskip hends hd hs
    exact hderives.value_iff

/-- A request that is answered in the very nanosecond of its start. -/
def instant : List Record := [.answered 100 [100]]

/-- A rate over records that took some time, and none over one that took no time. -/
theorem failures_propagate_instant :
    ∃ e, Engine.withSelection catalog [requestThroughput, tokenThroughput] .default = .ok e ∧
      (∃ s, (e.after Engine.mixed).finish .completed = .ok s ∧
        ∃ x, s.value? requestThroughput.text = some (.scalar x)) ∧
      ∃ s, (e.after instant).finish .cancelled = .ok s ∧
        (∃ sum, s.value? totalOutputTokens.text = some (.scalar sum)) ∧
        s.value? requestThroughput.text = some .unset ∧
        s.rejectionsOf requestThroughput.text = 1 := by
  refine ⟨_, rfl, ?_, ?_⟩
  · obtain ⟨s, hs, _, hrate, _⟩ := @failures_propagate [requestThroughput, tokenThroughput]
      .default _ rfl rfl Engine.mixed .completed
    refine ⟨s, hs, (hrate (by decide)).scalar_iff.mpr ⟨100, 240, rfl, rfl, by decide, ?_⟩⟩
    cases hs
    rfl
  · obtain ⟨s, hs, htotal, hrate, _, hsummary⟩ := @failures_propagate
      [requestThroughput, tokenThroughput] .default _ rfl rfl instant .cancelled
    obtain ⟨hle, hunset, hscalar⟩ := hsummary (amountOf requestThroughput "Request Throughput"
      "requests/sec" .summary true false [requestCount, benchmarkDuration]) (by decide) rfl
    have hnone : s.rejectionsOf requestThroughput.text ≠ 0 := by
      intro hzero
      obtain ⟨lo, hi, hlo, hhi, hlt, _⟩ := (hrate (by decide)).scalar_iff.mp (hscalar.mpr hzero)
      -- the span begins where it ends
      cases hlo
      cases hhi
      exact absurd hlt (by decide)
    have hone : s.rejectionsOf requestThroughput.text = 1 :=
      Nat.le_antisymm hle (Nat.pos_of_ne_zero hnone)
    exact ⟨s, hs, htotal (by decide), hunset.mpr hone, hone⟩

end Standard
end BenchMetrics
