import BenchMetrics.Proofs.Measure.Checks
import BenchMetrics.Proofs.Number.Whole
import BenchMetrics.Proofs.Run.Outcome

/-! The span of a run. The count of requests, the first start and the last response are measured
each in its own way, and accept the same records: those whose responses were received in order. The
span between them is exact in 64 bits, also where a float could not tell its ends apart. -/
namespace BenchMetrics
open Accumulator EvaluationOrder BenchMetrics.Measure

namespace Record

/-- When the last response was received. -/
def lastNs? (r : Record) : Option Int64 := r.extracts.getLast?.map (·.receivedNs)

variable {r : Record}

theorem fit_ranges (h : r.isFit) : inOpenRange r.startNs ∧ r.extracts ≠ [] ∧
    ∀ e ∈ r.extracts, inOpenRange e.receivedNs := by
  obtain ⟨_, hranges⟩ := isUsable_iff.mp (Bool.and_eq_true_iff.mp h).2
  exact hranges

theorem lastNs?_eq (h : r.isFit) : r.lastNs? = some (lastOf r.times) := by
  have hsome := List.getLast?_eq_some_getLast (fit_ranges h).2.1
  have htimes : r.times.getLast? = some (r.extracts.getLast (fit_ranges h).2.1).receivedNs := by
    rw [times, List.getLast?_map, hsome]
    rfl
  rw [lastNs?, hsome, lastOf, List.getLastD_eq_getLast?, htimes]
  rfl

end Record

/-- The records that were answered in order, of those that reach the metrics. -/
def ordered (rs : List Record) : List Record := rs.filter fun r => r.isFit && r.isOrdered

theorem ordered_eq_filter (rs : List Record) :
    ordered rs = (Engine.fed rs).filter Record.isOrdered := by
  rw [Engine.fed_eq_filter, List.filter_filter, ordered]
  apply List.filter_congr
  intro r _
  exact Bool.and_comm _ _

theorem fit_of_mem_ordered {rs : List Record} {r : Record} (h : r ∈ ordered rs) : r.isFit :=
  (Bool.and_eq_true_iff.mp (List.mem_filter.mp h).2).1

namespace Measure

variable {r : Record}

theorem arrived_of_fit (h : r.isFit) : Arrived 1 r.times ↔ r.isOrdered := by
  obtain ⟨_, hsome, hranges⟩ := Record.fit_ranges h
  rw [Record.isOrdered, decide_eq_true_eq]
  refine ⟨Arrived.ordered, fun hordered => ⟨?_, List.forall_mem_map.mpr hranges, hordered⟩⟩
  rw [Record.times, List.length_map]
  exact List.length_pos_iff.mpr hsome

theorem arrivals_of_fit (h : r.isFit) :
    (arrivals r 1).toOption = if r.isOrdered then some r.times else none := by
  by_cases hordered : r.isOrdered
  · rw [if_pos hordered, arrivals_eq_ok_iff.mpr ⟨rfl, (arrived_of_fit h).mpr hordered⟩]
    rfl
  · rw [if_neg hordered]
    cases harrivals : arrivals r 1 with
    | error fault => rfl
    | ok ts => exact absurd ((arrived_of_fit h).mp (arrivals_eq_ok_iff.mp harrivals).2) hordered

/-- What a measurement reads off the ordered records, of those that are fed; it rejects the
others. -/
def Accepts {α : Type} (compute : Record → Except Fault α) (reading : Record → α) : Prop :=
  ∀ r : Record, r.isFit →
    (compute r).toOption = if r.isOrdered then some (reading r) else none

section
variable {α : Type} {compute : Record → Except Fault α} {reading : Record → α}

theorem accepts_of_arrivals {f : Record → List Int64 → Except Fault α}
    (hcompute : ∀ r, compute r = arrivals r 1 >>= f r)
    (hreading : ∀ r : Record, r.isFit → f r r.times = .ok (reading r)) :
    Accepts compute reading := by
  intro r hr
  have harrivals := arrivals_of_fit hr
  rw [hcompute]
  by_cases hordered : r.isOrdered
  · rw [if_pos hordered] at harrivals ⊢
    rw [Cell.toOption_eq_some harrivals]
    exact congrArg Except.toOption (hreading r hr)
  · rw [if_neg hordered] at harrivals ⊢
    obtain ⟨fault, hfault⟩ := Cell.toOption_eq_none harrivals
    rw [hfault]
    rfl

theorem accepts_requestCount : Accepts requestCount fun _ => 1.0 :=
  accepts_of_arrivals (fun _ => rfl) fun _ _ => rfl

theorem accepts_requestStart : Accepts requestStart Record.startNs := by
  apply accepts_of_arrivals (fun _ => rfl)
  intro r hr
  rw [startNs, if_pos (Record.fit_ranges hr).1]

theorem accepts_lastResponse : Accepts lastResponse fun r => lastOf r.times :=
  accepts_of_arrivals (fun _ => rfl) fun _ _ => rfl

theorem Accepts.filterMap (h : Accepts compute reading) (rs : List Record) :
    (Engine.fed rs).filterMap (fun r => (compute r).toOption) = (ordered rs).map reading := by
  rw [ordered_eq_filter, ← List.filterMap_eq_map, ← List.filterMap_eq_filter,
    List.filterMap_filterMap]
  apply List.filterMap_congr
  intro r hr
  rw [Engine.fed_eq_filter] at hr
  rw [h r (List.mem_filter.mp hr).2]
  by_cases hordered : r.isOrdered <;> simp [hordered, Option.guard]

/-- The fed records that are rejected are those that are not ordered. -/
theorem Accepts.countP (h : Accepts compute reading) (rs : List Record) :
    (Engine.fed rs).countP (fun r => (compute r).toOption.isNone) + (ordered rs).length =
      (Engine.fed rs).length := by
  have hboth := Engine.countP_isSome_add_isNone (fun r => (compute r).toOption) (Engine.fed rs)
  have haccepted : (Engine.fed rs).countP (fun r => (compute r).toOption.isSome) =
      (ordered rs).length := by
    rw [← List.length_filterMap_eq_countP, h.filterMap, List.length_map]
  omega

end
end Measure

/-! ### Combining -/

instance lawfulOrderMaxInt64 : Std.LawfulOrderMax Int64 where
  max_eq_or x y := by
    have hmax : max x y = if x ≤ y then y else x := rfl
    rw [hmax]
    split
    · exact Or.inr rfl
    · exact Or.inl rfl
  max_le_iff x y z := by
    rw [Int64.le_iff_toInt_le, Int64.le_iff_toInt_le, Int64.le_iff_toInt_le, Cell.toInt_max]
    omega

namespace Cell

theorem gathered_min (xs : List Int64) : gathered min xs = xs.min? := by
  rw [gathered_eq_leftFold]
  cases xs <;> rfl

theorem gathered_max (xs : List Int64) : gathered max xs = xs.max? := by
  rw [gathered_eq_leftFold]
  cases xs <;> rfl

/-- Ones are counted exactly up to the size of a mantissa, where the count stands still. -/
theorem gathered_ones (n : Nat) : gathered (· + ·) (List.replicate n (1.0 : Float)) =
    if n = 0 then none else some (Float.ofNat (min n (2 ^ 53))) := by
  induction n with
  | zero => rfl
  | succ n ih =>
    rw [List.replicate_succ', gathered_snoc, ih, if_neg (Nat.succ_ne_zero n)]
    by_cases hn : n = 0
    · -- the first one is taken as it is, and nothing is added
      rw [hn, if_pos rfl]
      decide +kernel
    · rw [if_neg hn]
      exact congrArg some (ofNat_min_add_one (Nat.pos_of_ne_zero hn))

end Cell

/-- The first start and the last response of records, if there are any. -/
structure Extent (rs : List Record) (first last : Option Int64) : Prop where
  first_none : first = none ↔ rs = []
  last_none : last = none ↔ rs = []
  least : ∀ lo, first = some lo → IsLeast {ns | ∃ r ∈ rs, r.startNs = ns} lo
  greatest : ∀ hi, last = some hi → IsGreatest {ns | ∃ r ∈ rs, r.lastNs? = some ns} hi

namespace Extent

variable {rs : List Record} {first last : Option Int64} {lo hi : Int64}

theorem of_ordered (rs : List Record) : Extent (ordered rs)
    ((ordered rs).map Record.startNs).min? ((ordered rs).map fun r => lastOf r.times).max? where
  first_none := by rw [List.min?_eq_none_iff, List.map_eq_nil_iff]
  last_none := by rw [List.max?_eq_none_iff, List.map_eq_nil_iff]
  least := by
    intro lo hlo
    obtain ⟨hmem, hleast⟩ := List.min?_eq_some_iff.mp hlo
    refine ⟨List.mem_map.mp hmem, ?_⟩
    intro ns hns
    exact hleast ns (List.mem_map.mpr hns)
  greatest := by
    intro hi hhi
    obtain ⟨hmem, hgreatest⟩ := List.max?_eq_some_iff.mp hhi
    have hlast : ∀ r ∈ ordered rs, r.lastNs? = some (lastOf r.times) :=
      fun r hr => Record.lastNs?_eq (fit_of_mem_ordered hr)
    obtain ⟨r, hr, rfl⟩ := List.mem_map.mp hmem
    refine ⟨⟨r, hr, hlast r hr⟩, ?_⟩
    intro ns hns
    obtain ⟨r', hr', hns⟩ := hns
    rw [hlast r' hr', Option.some.injEq] at hns
    exact hns ▸ hgreatest _ (List.mem_map_of_mem hr')

/-- Both ends of an extent are times that can be measured from. -/
theorem ranges (h : Extent (ordered rs) (some lo) (some hi)) :
    inOpenRange lo ∧ inOpenRange hi := by
  obtain ⟨r, hr, rfl⟩ := (h.least lo rfl).1
  obtain ⟨r', hr', hlast⟩ := (h.greatest hi rfl).1
  obtain ⟨x, hx, rfl⟩ := Option.map_eq_some_iff.mp hlast
  obtain ⟨hstart, _, _⟩ := Record.fit_ranges (fit_of_mem_ordered hr)
  obtain ⟨_, _, hreceived⟩ := Record.fit_ranges (fit_of_mem_ordered hr')
  exact ⟨hstart, hreceived x (List.mem_of_getLast? hx)⟩

end Extent

/-- What the span of a run comes to, between a first start and a last response. -/
inductive Lasts (first last : Option Int64) : Except MetricError Float → Prop
  | measured {lo hi : Int64} (hfirst : first = some lo) (hlast : last = some hi) (hle : lo ≤ hi) :
    Lasts first last (.ok (nanosToFloat (hi - lo)))
  | unanswered {err : MetricError} (hfirst : first = none) (hlast : last = none) :
    Lasts first last (.error err)
  | reversed {lo hi : Int64} {err : MetricError} (hfirst : first = some lo)
    (hlast : last = some hi) (hlt : hi < lo) : Lasts first last (.error err)

namespace Lasts

variable {lo hi : Int64} {result : Except MetricError Float}

theorem eq_ok_of_le (h : Lasts (some lo) (some hi) result) (hle : lo ≤ hi) :
    result = .ok (nanosToFloat (hi - lo)) := by
  cases h with
  | measured hfirst hlast _ =>
    cases hfirst
    cases hlast
    rfl
  | unanswered hnone => cases hnone
  | reversed hfirst hlast hlt =>
    cases hfirst
    cases hlast
    exact absurd hlt (Int64.not_lt.mpr hle)

theorem exists_error_of_lt (h : Lasts (some lo) (some hi) result) (hlt : hi < lo) :
    ∃ err, result = .error err := by
  cases h with
  | measured hfirst hlast hle =>
    cases hfirst
    cases hlast
    exact absurd hlt (Int64.not_lt.mpr hle)
  | unanswered | reversed => exact ⟨_, rfl⟩

theorem exists_error_of_none (h : Lasts none none result) : ∃ err, result = .error err := by
  cases h with
  | measured hfirst => cases hfirst
  | unanswered | reversed => exact ⟨_, rfl⟩

end Lasts

theorem Measure.lasts_span {rs : List Record} {x y : Exposed} {whole : View} {first last : Tag}
    (hfirst : whole.find? first = some x) (hlast : whole.find? last = some y)
    (h : Extent rs x.timestamp y.timestamp) (owner : Tag) :
    Lasts x.timestamp y.timestamp (span owner first last whole) := by
  rw [span, View.timestamp, View.timestamp, View.demand_of_find? hfirst, View.demand_of_find? hlast]
  cases hx : x.timestamp with
  | none =>
    have hy : y.timestamp = none := h.last_none.mpr (h.first_none.mp hx)
    exact .unanswered rfl hy
  | some lo =>
    cases hy : y.timestamp with
    | none =>
      -- one record bounds the span on both sides
      rw [h.first_none.mpr (h.last_none.mp hy)] at hx
      cases hx
    | some hi =>
      show Lasts (some lo) (some hi) (if hi < lo then _ else _)
      by_cases hlt : hi < lo
      · rw [if_pos hlt]
        exact .reversed rfl rfl hlt
      · rw [if_neg hlt]
        exact .measured rfl rfl (Int64.not_lt.mp hlt)

namespace Standard

variable {selection : List Tag} {settings : Settings} {e : Engine} {rs : List Record}

/-- The duration has both of its ends in front of it. -/
theorem bounds_mem_order (he : Engine.withSelection catalog selection settings = .ok e)
    (ht : benchmarkDuration ∈ tagsOf e.order) :
    minRequestTimestamp ∈ tagsOf e.order ∧ maxResponseTimestamp ∈ tagsOf e.order :=
  ⟨mem_order_of_required he ht ⟨_, rfl, .head _⟩,
    mem_order_of_required he ht ⟨_, rfl, .tail _ (.head _)⟩⟩

section
variable (he : Engine.withSelection catalog selection settings = .ok e)
  (hskip : settings.policy = .skip) (rs : List Record)
include he hskip

/-- The count of a run that skips. -/
theorem requestCount_after (ht : requestCount ∈ tagsOf e.order) :
    (e.after rs).valueOf requestCount = some (if ordered rs = [] then .unset else
        .scalar (Float.ofNat (min (ordered rs).length (2 ^ 53)))) ∧
      (e.after rs).rejectionsOf requestCount + (ordered rs).length =
        (Engine.fed rs).length := by
  have hd : catalog.get? requestCount = some (define (amountOf requestCount "Request Count"
      "requests" .record true false []) (.fold · Measure.requestCount (· + ·))) := rfl
  obtain ⟨before, hshown, htally⟩ := recorded he hskip ht hd rfl rs
  refine ⟨?_, htally ▸ Measure.accepts_requestCount.countP rs⟩
  have hones := Measure.accepts_requestCount.filterMap rs
  rw [List.map_const'] at hones
  rw [Engine.valueOf, hshown]
  show some ((Cell.gathered (· + ·) ((Engine.fed rs).filterMap fun r =>
    (Measure.requestCount r).toOption)).elim Value.unset .scalar) = _
  rw [hones, Cell.gathered_ones]
  by_cases hnone : ordered rs = []
  · rw [hnone]
    rfl
  · have hlength : (ordered rs).length ≠ 0 := by
      rw [Ne, List.length_eq_zero_iff]
      exact hnone
    rw [if_neg hlength, if_neg hnone]
    rfl

/-- An end of the span of a run that skips. -/
theorem timestampOf_after {t : Tag} (ht : t ∈ tagsOf e.order) {d : Definition}
    (hd : catalog.get? t = some d) (hs : d.fresh.descriptor.stage.takesRecords)
    {compute : Record → Except Fault Int64} {combine : Int64 → Int64 → Int64}
    (hcell : d.fresh.cell = .timestamp compute combine none) {reading : Record → Int64}
    (haccepts : Measure.Accepts compute reading) :
    (e.after rs).timestampOf t = Cell.gathered combine ((ordered rs).map reading) ∧
      (e.after rs).rejectionsOf t + (ordered rs).length = (Engine.fed rs).length := by
  obtain ⟨before, hshown, htally⟩ := recorded he hskip ht hd hs rs
  refine ⟨?_, ?_⟩
  · rw [Engine.timestampOf, hshown, ← haccepts.filterMap, Option.bind_some, exposed,
      Accumulator.timestamp?, after_cell hs, hcell]
    rfl
  · have hworth : ∀ r, (d.fresh.worth before r).isNone = (compute r).toOption.isNone := by
      intro r
      rw [worth, hcell, Cell.worth, Option.isNone_map]
    simp only [hworth] at htally
    rw [htally]
    exact haccepts.countP rs

/-- The two ends of the span describe the ordered records, and reject the others. -/
theorem extent_after (ht : benchmarkDuration ∈ tagsOf e.order) :
    Extent (ordered rs) ((e.after rs).timestampOf minRequestTimestamp)
        ((e.after rs).timestampOf maxResponseTimestamp) ∧
      (e.after rs).rejectionsOf minRequestTimestamp + (ordered rs).length =
        (Engine.fed rs).length ∧
      (e.after rs).rejectionsOf maxResponseTimestamp + (ordered rs).length =
        (Engine.fed rs).length := by
  obtain ⟨hfirst, hlast⟩ := bounds_mem_order he ht
  obtain ⟨hmin, hmintally⟩ := timestampOf_after he hskip rs hfirst
    (d := define (timeOf minRequestTimestamp "Minimum Request Timestamp" .record false [])
      (.timestamps · Measure.requestStart min)) rfl rfl rfl Measure.accepts_requestStart
  obtain ⟨hmax, hmaxtally⟩ := timestampOf_after he hskip rs hlast
    (d := define (timeOf maxResponseTimestamp "Maximum Response Timestamp" .record false [])
      (.timestamps · Measure.lastResponse max)) rfl rfl rfl Measure.accepts_lastResponse
  rw [hmin, hmax, Cell.gathered_min, Cell.gathered_max]
  exact ⟨.of_ordered rs, hmintally, hmaxtally⟩

/-- What the span of a run that skips comes to, as the other summary metrics find it. -/
theorem duration_at_end (ht : benchmarkDuration ∈ tagsOf e.order) {whole : View} {s : Summary}
    (h : (e.after rs).Ends whole s) : ∃ result,
      Lasts ((e.after rs).timestampOf minRequestTimestamp)
        ((e.after rs).timestampOf maxResponseTimestamp) result ∧
      whole.find? benchmarkDuration =
        some ⟨benchmarkDuration, result.toOption.elim .unset .scalar, none⟩ ∧
      s.Derives benchmarkDuration result := by
  obtain ⟨hfirst, hlast⟩ := bounds_mem_order he ht
  have hextent := (extent_after he hskip rs ht).1
  -- the formula finds both ends as the records have left them
  obtain ⟨_, hx, _⟩ := recorded he hskip hfirst rfl rfl rs
  obtain ⟨_, hy, _⟩ := recorded he hskip hlast rfl rfl rs
  have hfoundx := (ends_recorded he hskip hfirst rfl rfl h).1.trans hx
  have hfoundy := (ends_recorded he hskip hlast rfl rfl h).1.trans hy
  rw [Engine.timestampOf, Engine.timestampOf, hx, hy] at hextent ⊢
  obtain ⟨hfound, hderives⟩ := ends_derived he hskip ht rfl rfl rfl h
  exact ⟨_, Measure.lasts_span hfoundx hfoundy hextent benchmarkDuration, hfound, hderives⟩

end

/-- The metrics of the span all describe the same records. After any run that skips, the count, the
first start and the last response are those of the records that were answered in order, and each of
the three rejects what else is fed. The count is kept in a float, which counts to `2 ^ 53` exactly
and then stands still. The duration that the run ends with is the difference of the two times, taken
in 64 bits, where it always fits, before it becomes a float. Without records, or with a last
response before the first start, there is none, and one rejection. -/
theorem span_of_ordered (he : Engine.withSelection catalog selection settings = .ok e)
    (hskip : settings.policy = .skip) (hcount : requestCount ∈ selection)
    (hduration : benchmarkDuration ∈ selection) (rs : List Record) (ending : Ending) :
    (e.after rs).valueOf requestCount = some (if ordered rs = [] then .unset else
      .scalar (Float.ofNat (min (ordered rs).length (2 ^ 53)))) ∧
    Extent (ordered rs) ((e.after rs).timestampOf minRequestTimestamp)
      ((e.after rs).timestampOf maxResponseTimestamp) ∧
    (∀ t ∈ [requestCount, minRequestTimestamp, maxResponseTimestamp],
      (e.after rs).rejectionsOf t + (ordered rs).length = (Engine.fed rs).length) ∧
    ∃ s, (e.after rs).finish ending = .ok s ∧
      (∀ t ∈ [requestCount, minRequestTimestamp, maxResponseTimestamp],
        s.value? t.text = (e.after rs).valueOf t ∧
        s.rejectionsOf t.text = (e.after rs).rejectionsOf t) ∧
      (∀ lo hi, (e.after rs).timestampOf minRequestTimestamp = some lo →
        (e.after rs).timestampOf maxResponseTimestamp = some hi →
        (hi - lo).toInt = hi.toInt - lo.toInt ∧
        (lo ≤ hi → s.value? benchmarkDuration.text =
            some (.scalar (Float.ofInt (hi.toInt - lo.toInt))) ∧
          s.rejectionsOf benchmarkDuration.text = 0) ∧
        (hi < lo → s.value? benchmarkDuration.text = some .unset ∧
          s.rejectionsOf benchmarkDuration.text = 1)) ∧
      (ordered rs = [] → s.value? benchmarkDuration.text = some .unset ∧
        s.rejectionsOf benchmarkDuration.text = 1) := by
  have hkept : ∀ t ∈ [requestCount, benchmarkDuration], Engine.kept catalog settings t := by
    intro t ht
    have hplain : (catalog.get? t).any (·.descriptor.streamingOnly) = false := by
      revert t
      decide
    rw [Engine.kept, hplain, Bool.not_false, Bool.or_true]
  have ht := mem_order_of_selected he hcount (hkept _ (by decide))
  have hspan := mem_order_of_selected he hduration (hkept _ (by decide))
  obtain ⟨hfirst, hlast⟩ := bounds_mem_order he hspan
  obtain ⟨hvalue, htally⟩ := requestCount_after he hskip rs ht
  obtain ⟨hextent, hmin, hmax⟩ := extent_after he hskip rs hspan
  obtain ⟨whole, s, hfinish, hends⟩ := ends_after he rs ending
  obtain ⟨result, hlasts, _, hderives⟩ := duration_at_end he hskip rs hspan hends
  refine ⟨hvalue, hextent, ?_, s, hfinish, ?_, ?_, ?_⟩
  · simp only [List.forall_mem_cons, List.not_mem_nil, false_implies, implies_true, and_true]
    exact ⟨htally, hmin, hmax⟩
  · simp only [List.forall_mem_cons, List.not_mem_nil, false_implies, implies_true, and_true]
    exact ⟨(ends_recorded he hskip ht rfl rfl hends).2,
      (ends_recorded he hskip hfirst rfl rfl hends).2,
      (ends_recorded he hskip hlast rfl rfl hends).2⟩
  · intro lo hi hlo hhi
    rw [hlo, hhi] at hextent hlasts
    obtain ⟨hlow, hhigh⟩ := hextent.ranges
    have hexact := toInt_sub_of_inOpenRange hhigh hlow
    refine ⟨hexact, ?_, ?_⟩
    · intro hle
      rw [hlasts.eq_ok_of_le hle] at hderives
      have hvalue := hderives.value
      rw [nanosToFloat, hexact] at hvalue
      exact ⟨hvalue, hderives.rejections⟩
    · intro hlt
      obtain ⟨err, rfl⟩ := hlasts.exists_error_of_lt hlt
      exact ⟨hderives.value, hderives.rejections⟩
  · intro hnone
    rw [hextent.first_none.mpr hnone, hextent.last_none.mpr hnone] at hlasts
    obtain ⟨err, rfl⟩ := hlasts.exists_error_of_none
    exact ⟨hderives.value, hderives.rejections⟩

/-- A request of a nanosecond at a time that no float can tell from its end, and one that is
answered out of order. -/
def late : List Record := [
  .answered 9007199254740993 [9007199254740994], .answered 100 [190, 150]]

theorem span_of_ordered_late :
    ∃ e s, Engine.withSelection catalog [requestCount, benchmarkDuration] .default = .ok e ∧
      (e.after late).finish .cancelled = .ok s ∧
      s.value? benchmarkDuration.text = some (.scalar (Float.ofInt 1)) ∧
      s.rejectionsOf benchmarkDuration.text = 0 ∧
      (e.after late).rejectionsOf requestCount + (ordered late).length =
        (Engine.fed late).length := by
  obtain ⟨_, _, htally, s, hs, _, hspan, _⟩ :=
    @span_of_ordered [requestCount, benchmarkDuration] .default _ rfl rfl (by decide) (by decide)
      late .cancelled
  obtain ⟨_, hmeasured, _⟩ := hspan 9007199254740993 9007199254740994 rfl rfl
  obtain ⟨hvalue, hquiet⟩ := hmeasured (by decide)
  exact ⟨_, s, rfl, hs, hvalue, hquiet, htally requestCount (.head _)⟩

end Standard
end BenchMetrics
