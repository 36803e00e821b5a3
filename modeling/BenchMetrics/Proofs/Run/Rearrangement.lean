import BenchMetrics.Proofs.Run.Accounting
import BenchMetrics.Proofs.Run.Conclusion
import BenchMetrics.Proofs.Run.Likeness

/-! Records in another order. A run over a permutation of the records ends with the same counts,
the same report of failures and the same rejections; counts, spans and rates over a span are the
same, and each series has the slot of each record where the record now stands. -/
namespace BenchMetrics
open Accumulator EvaluationOrder Standard

namespace Cell

/-- What is combined by an operation that is commutative and associative does not depend on the
order. -/
theorem gathered_eq_of_perm {α : Type} {combine : α → α → α}
    (hcomm : ∀ x y, combine x y = combine y x)
    (hassoc : ∀ x y z, combine (combine x y) z = combine x (combine y z)) {xs ys : List α}
    (h : xs.Perm ys) : gathered combine xs = gathered combine ys := by
  apply h.foldl_eq'
  intro x _ y _ current
  cases current with
  | none => simp only [combined, hcomm]
  | some z => simp only [combined, hassoc, hcomm x y]

theorem toInt_max (x y : Int64) : (max x y).toInt = max x.toInt y.toInt := by
  have hmax : max x y = if x ≤ y then y else x := rfl
  rw [hmax]
  split <;> rename_i h <;> rw [Int64.le_iff_toInt_le] at h <;> omega

theorem gathered_min_of_perm {xs ys : List Int64} (h : xs.Perm ys) :
    gathered min xs = gathered min ys :=
  gathered_eq_of_perm Std.Commutative.comm Std.Associative.assoc h

theorem gathered_max_of_perm {xs ys : List Int64} (h : xs.Perm ys) :
    gathered max xs = gathered max ys := by
  apply gathered_eq_of_perm _ _ h
  · intro x y
    apply Int64.toInt_inj.mp
    rw [toInt_max, toInt_max, Int.max_comm]
  · intro x y z
    apply Int64.toInt_inj.mp
    simp only [toInt_max]
    omega

/-- A cell in which the order of the records leaves no trace but in the places of the slots. -/
def OrderFree : Cell → Prop
  | .fold compute combine _ => ∀ fs gs : List Record, fs.Perm gs →
      gathered combine (fs.filterMap fun r => (compute r).toOption) =
        gathered combine (gs.filterMap fun r => (compute r).toOption)
  | .timestamp _ combine _ => ∀ xs ys : List Int64, xs.Perm ys →
      gathered combine xs = gathered combine ys
  | _ => True

/-- Counting is adding ones: all lists of as many ones are the same. -/
theorem orderFree_requestCount : OrderFree (.fold Measure.requestCount (· + ·) none) := by
  intro fs gs h
  have hones : ∀ fs : List Record, ∀ x ∈ fs.filterMap fun r =>
      (Measure.requestCount r).toOption, x = 1.0 := by
    intro fs x hx
    obtain ⟨r, _, hr⟩ := List.mem_filterMap.mp hx
    unfold Measure.requestCount at hr
    cases ha : Measure.arrivals r 1 with
    | error fault => simp [ha, bind, Except.bind, Except.toOption] at hr
    | ok ts => simpa [ha, bind, Except.bind, Except.toOption, eq_comm] using hr
  have hperm := h.filterMap fun r => (Measure.requestCount r).toOption
  congr 1
  rw [List.eq_replicate_of_mem (hones fs), List.eq_replicate_of_mem (hones gs), hperm.length_eq]

theorem after_alike {c : Cell} (hfree : c.OrderFree) {w : Record → Option Float}
    (hw : ∀ r, ∃ shown, w r = c.worth r shown) {fs gs : List Record} (h : fs.Perm gs)
    (exact : Bool) : (c.after w fs).value.Alike exact (c.after w gs).value ∧
      (c.after w fs).timestamp? = (c.after w gs).timestamp? := by
  cases c with
  | series compute slots => exact ⟨h.map _, rfl⟩
  | rate source label cursor slots => exact ⟨h.map _, rfl⟩
  | derived formula current => exact ⟨Value.Alike.refl _ _, rfl⟩
  | fold compute combine current =>
    have hcompute : w = fun r => (compute r).toOption := by
      funext r
      obtain ⟨shown, hr⟩ := hw r
      exact hr
    have hsame := hfree fs gs h
    rw [← hcompute] at hsame
    rw [Cell.after, Cell.after, hsame]
    exact ⟨Value.Alike.refl _ _, rfl⟩
  | timestamp compute combine current =>
    have hsame := hfree _ _ (h.filterMap fun r => (compute r).toOption)
    rw [Cell.after, Cell.after, hsame]
    exact ⟨Value.Alike.refl _ _, rfl⟩

end Cell

section
variable {exact : Tag → Bool} {a : Accumulator} {fs gs : List Record}

/-- A metric that can take its records in any order, and that is blind if it is a summary
metric. -/
structure Accumulator.OrderFree (exact : Tag → Bool) (a : Accumulator) : Prop where
  cell : a.cell.OrderFree
  summary : a.descriptor.stage = .summary →
    ∃ formula, a.cell = .derived formula none ∧ Blind exact a.tag formula

theorem Accumulator.OrderFree.of_takesRecords (hs : a.descriptor.stage.takesRecords)
    (hcell : a.cell.OrderFree) : a.OrderFree exact := by
  refine ⟨hcell, ?_⟩
  intro hsummary
  rw [hsummary] at hs
  cases hs

theorem Accumulator.OrderFree.of_derived {formula : View → Except MetricError Float}
    (hcell : a.cell = .derived formula none) (hblind : Blind exact a.tag formula) :
    a.OrderFree exact :=
  ⟨by rw [hcell]; trivial, fun _ => ⟨formula, hcell, hblind⟩⟩

theorem Accumulator.OrderFree.after_alike (h : a.OrderFree exact) (before : List Accumulator)
    (hp : fs.Perm gs) : (a.after before fs).Alike exact (a.after before gs) := by
  by_cases hs : a.descriptor.stage.takesRecords
  · have hw : ∀ r, ∃ shown, a.worth before r = a.cell.worth r shown := fun r => ⟨_, rfl⟩
    obtain ⟨hvalue, htimestamp⟩ := Cell.after_alike h.cell hw hp (exact a.tag)
    rw [Accumulator.after, Accumulator.after, if_pos hs, if_pos hs]
    refine ⟨rfl, ⟨rfl, htimestamp, hvalue⟩, ?_⟩
    intro hsummary
    have hsummary' : a.descriptor.stage = .summary := hsummary
    rw [hsummary'] at hs
    cases hs
  · rw [Accumulator.after, Accumulator.after, if_neg hs, if_neg hs]
    refine ⟨rfl, ⟨rfl, rfl, Value.Alike.refl _ _⟩, ?_⟩
    intro hsummary
    obtain ⟨formula, hcell, hblind⟩ := h.summary hsummary
    exact ⟨formula, none, none, hcell, hcell, hblind⟩

theorem Accumulator.settled_alike {ms : List Accumulator} (h : ∀ a ∈ ms, a.OrderFree exact)
    (before : List Accumulator) (hp : fs.Perm gs) :
    List.Forall₂ (Accumulator.Alike exact) (settled fs before ms) (settled gs before ms) := by
  induction ms generalizing before with
  | nil => exact .nil
  | cons a ms ih =>
    have hrest : ∀ b ∈ ms, b.OrderFree exact := fun b hb => h b (.tail _ hb)
    exact .cons ((h a (.head _)).after_alike before hp) (ih hrest (before ++ [a]))

end

namespace Standard

/-- Of the standard metrics, the sum of a series and the rate of that sum depend on the order of
the records. -/
def exact (t : Tag) : Bool := t ≠ totalOutputTokens && t ≠ tokenThroughput

theorem orderFree {d : Definition} (hd : d ∈ catalog.definitions) :
    d.fresh.OrderFree exact := by
  have htotal : Blind exact totalOutputTokens (Measure.total totalOutputTokens outputLength) :=
    blind_total outputLength (by decide)
  have hspan : Blind exact benchmarkDuration
      (Measure.span benchmarkDuration minRequestTimestamp maxResponseTimestamp) :=
    blind_span _ _ _
  have hrate : Blind exact requestThroughput
      (Measure.perSecond requestThroughput requestCount benchmarkDuration) :=
    blind_perSecond (by decide) (fun _ => by decide)
  have htokens : Blind exact tokenThroughput
      (Measure.perSecond tokenThroughput totalOutputTokens benchmarkDuration) :=
    blind_perSecond (by decide) (fun h => by cases h)
  simp only [catalog, definitions, groups, latencies, lengths, spans, throughputs, define,
    List.flatten_cons, List.flatten_nil, List.append_nil, List.cons_append, List.nil_append,
    List.mem_cons, List.not_mem_nil, or_false] at hd
  rcases hd with rfl | rfl | rfl | rfl | rfl | rfl | rfl | rfl | rfl | rfl | rfl | rfl | rfl | rfl
  -- in series and rates every slot is a record's own
  · exact .of_takesRecords rfl trivial
  · exact .of_takesRecords rfl trivial
  · exact .of_takesRecords rfl trivial
  · exact .of_takesRecords rfl trivial
  · exact .of_takesRecords rfl trivial
  · exact .of_takesRecords rfl trivial
  · exact .of_derived rfl htotal
  · exact .of_takesRecords rfl Cell.orderFree_requestCount
  · exact .of_takesRecords rfl fun _ _ => Cell.gathered_min_of_perm
  · exact .of_takesRecords rfl fun _ _ => Cell.gathered_max_of_perm
  · exact .of_derived rfl hspan
  · exact .of_derived rfl hrate
  · exact .of_derived rfl htokens
  · exact .of_takesRecords rfl trivial

/-- The standard metrics that hold one number which does not depend on the order of the
records. -/
def settledScalars : List Tag :=
  [requestCount, minRequestTimestamp, maxResponseTimestamp, benchmarkDuration, requestThroughput]

theorem slots?_of_settledScalars {t : Tag} (ht : t ∈ settledScalars) {d : Definition}
    (hd : catalog.get? t = some d) : d.fresh.cell.slots? = none := by
  have hall : ∀ t ∈ settledScalars, (catalog.get? t).all (·.fresh.cell.slots?.isNone) := by
    decide
  have hone := hall t ht
  rw [hd] at hone
  exact Option.isNone_iff_eq_none.mp hone

theorem takesRecords_of_slots? {d : Definition} (hd : d ∈ catalog.definitions)
    (hslots : d.fresh.cell.slots?.isSome) : d.fresh.descriptor.stage.takesRecords := by
  have hall : ∀ d ∈ catalog.definitions, d.fresh.cell.slots?.isSome →
      d.fresh.descriptor.stage.takesRecords := by decide
  exact hall d hd hslots

variable {selection : List Tag} {settings : Settings} {e : Engine} {rs rs' : List Record}

theorem orderFree_metrics (he : Engine.withSelection catalog selection settings = .ok e) :
    ∀ a ∈ e.metrics, a.OrderFree exact := by
  intro a ha
  have hmem := (mem_of_get? (get?_tag he ha)).1
  exact orderFree hmem

/-- What the pass over the summary metrics makes of a run. -/
def concluded (e : Engine) (rs : List Record) : Engine.Pass :=
  Engine.summarizeFrom [] (e.after rs).metrics

theorem reached (he : Engine.withSelection catalog selection settings = .ok e)
    (hskip : settings.policy = .skip) (rs : List Record) : e.Reached rs (e.after rs) := by
  obtain ⟨hfresh, hset⟩ := Engine.fresh_of_withSelection catalog_proper he
  exact hfresh.reached_after (by rw [hset, hskip]) rs

theorem fed_perm (hp : rs.Perm rs') : (Engine.fed rs).Perm (Engine.fed rs') := hp.filter _

theorem concluded_alike (he : Engine.withSelection catalog selection settings = .ok e)
    (hskip : settings.policy = .skip) (hp : rs.Perm rs') :
    (concluded e rs).stopped = none ∧ (concluded e rs').stopped = none ∧
      (concluded e rs).rejected = (concluded e rs').rejected ∧
      List.Forall₂ (Accumulator.Alike exact) (concluded e rs).metrics
        (concluded e rs').metrics := by
  have hmetrics := settled_alike (orderFree_metrics he) [] (fed_perm hp)
  rw [← (reached he hskip rs).metrics, ← (reached he hskip rs').metrics] at hmetrics
  exact Engine.summarizeFrom_alike hmetrics .nil

theorem rejections_eq (he : Engine.withSelection catalog selection settings = .ok e)
    (hskip : settings.policy = .skip) (hp : rs.Perm rs') :
    (concluded e rs).rejected.foldl Engine.tally (e.after rs).rejections =
      (concluded e rs').rejected.foldl Engine.tally (e.after rs').rejections := by
  have hrefused : (Engine.refused e.metrics (Engine.fed rs)).Perm
      (Engine.refused e.metrics (Engine.fed rs')) := (fed_perm hp).flatMap_right _
  rw [(reached he hskip rs).rejections, (reached he hskip rs').rejections,
    (concluded_alike he hskip hp).2.2.1, Engine.foldl_tally_of_perm hrefused]

/-- Every metric keeps its place in the pass, and one that takes records stays as the records
left it. -/
theorem concluded_frame (he : Engine.withSelection catalog selection settings = .ok e)
    (hskip : settings.policy = .skip) (rs : List Record) :
    List.Forall₂ (fun a b => b.descriptor = a.descriptor ∧
      (a.descriptor.stage ≠ .summary → b = a)) (settled (Engine.fed rs) [] e.metrics)
      (concluded e rs).metrics := by
  rw [← (reached he hskip rs).metrics]
  exact Engine.summarizeFrom_frame (concluded_alike he hskip (List.Perm.refl rs)).1

theorem tags_concluded (he : Engine.withSelection catalog selection settings = .ok e)
    (hskip : settings.policy = .skip) (rs : List Record) :
    (concluded e rs).metrics.map (·.tag) = e.metrics.map (·.tag) := by
  rw [← tags_settled (Engine.fed rs) [] e.metrics]
  have hframe := concluded_frame he hskip rs
  generalize settled (Engine.fed rs) [] e.metrics = ms, (concluded e rs).metrics = ns at hframe
  induction hframe with
  | nil => rfl
  | cons hab _ ih =>
    rw [List.map_cons, List.map_cons, ih]
    exact congrArg (· :: _) (congrArg Descriptor.tag hab.1)

/-- A metric of one number holds no series when the run is over. -/
theorem series?_concluded (he : Engine.withSelection catalog selection settings = .ok e)
    (hskip : settings.policy = .skip) {b : Accumulator} (hb : b ∈ (concluded e rs).metrics)
    (ht : b.tag ∈ settledScalars) : b.value.series? = none := by
  obtain ⟨c, hc, hdescriptor, hkeep⟩ := Engine.forall₂_right (concluded_frame he hskip rs) hb
  have hslots : b.cell.slots? = none := by
    by_cases hs : b.descriptor.stage = .summary
    · -- it is derived
      have halike := (concluded_alike he hskip (List.Perm.refl rs)).2.2.2
      obtain ⟨x, _, hxb⟩ := Engine.forall₂_right halike hb
      have hs' : x.descriptor.stage = .summary := hxb.descriptor ▸ hs
      obtain ⟨formula, _, current, _, hcell, _⟩ := hxb.summary hs'
      rw [hcell]
      rfl
    · -- it is as the records left it
      rw [hdescriptor] at hs
      obtain ⟨a, ha, front, hca⟩ := mem_settled hc
      have htag : a.tag ∈ settledScalars := by
        rw [hkeep hs, hca, after_tag] at ht
        exact ht
      have hfresh : a.cell.slots? = none := slots?_of_settledScalars htag (get?_tag he ha)
      rw [hkeep hs, hca]
      unfold Accumulator.after
      split
      · rw [Cell.slots?_after, hfresh]
        rfl
      · exact hfresh
  rw [← Cell.series?_value] at hslots
  exact hslots

theorem value?_settledScalars (he : Engine.withSelection catalog selection settings = .ok e)
    (hskip : settings.policy = .skip) (hp : rs.Perm rs') {t : Tag} (ht : t ∈ settledScalars) :
    (Engine.valuesOf (concluded e rs).metrics).get? t.text =
      (Engine.valuesOf (concluded e rs').metrics).get? t.text := by
  have htags := tags_concluded he hskip rs
  have htags' := tags_concluded he hskip rs'
  by_cases hmem : t ∈ e.metrics.map (·.tag)
  · rw [← htags] at hmem
    obtain ⟨b, hb, rfl⟩ := List.mem_map.mp hmem
    obtain ⟨_, c, _, hsplit, hbc⟩ :=
      Engine.exists_split_of_forall₂ (concluded_alike he hskip hp).2.2.2 hb
    have hc : c ∈ (concluded e rs').metrics := by
      rw [hsplit]
      simp
    have htag : c.tag = b.tag := congrArg Descriptor.tag hbc.descriptor.symm
    have hexact : exact b.tag = true := by
      have hall : ∀ t ∈ settledScalars, exact t = true := by decide
      exact hall b.tag ht
    have hvalue : b.value = c.value := by
      have halike : b.value.Alike (exact b.tag) c.value := hbc.exposed.value
      rw [hexact] at halike
      exact halike.eq_of_scalar (series?_concluded he hskip hb ht)
    rw [Engine.get?_valuesOf (htags ▸ nodup_tags he) hb, ← htag,
      Engine.get?_valuesOf (htags' ▸ nodup_tags he) hc, hvalue]
  · rw [Engine.get?_valuesOf_eq_none (htags ▸ hmem), Engine.get?_valuesOf_eq_none (htags' ▸ hmem)]

/-- A metric with slots ends with the slot of each fed record, in the order of the records. -/
theorem value?_series (he : Engine.withSelection catalog selection settings = .ok e)
    (hskip : settings.policy = .skip) (rs : List Record) {before rest : List Accumulator}
    {a : Accumulator} (hms : e.metrics = before ++ a :: rest) (hslots : a.cell.slots?.isSome) :
    (Engine.valuesOf (concluded e rs).metrics).get? a.tag.text =
      some (.series ((Engine.fed rs).map fun r => (a.worth before r).map Sample.of).toArray) := by
  have ha : a ∈ e.metrics := by
    rw [hms]
    simp
  have hs : a.descriptor.stage.takesRecords :=
    takesRecords_of_slots? (mem_of_get? (get?_tag he ha)).1 hslots
  have hsettled : a.after before (Engine.fed rs) ∈ settled (Engine.fed rs) [] e.metrics := by
    rw [hms]
    exact after_mem_settled (Engine.fed rs) before a rest
  obtain ⟨_, b, _, hsplit, _, hkeep⟩ :=
    Engine.exists_split_of_forall₂ (concluded_frame he hskip rs) hsettled
  have hb : b = a.after before (Engine.fed rs) := by
    apply hkeep
    rw [after_descriptor]
    intro hsummary
    rw [hsummary] at hs
    cases hs
  have hmem : a.after before (Engine.fed rs) ∈ (concluded e rs).metrics := by
    rw [hsplit, hb]
    simp
  have hnodup : ((concluded e rs).metrics.map (·.tag)).Nodup := by
    rw [tags_concluded he hskip rs]
    exact nodup_tags he
  have hget := Engine.get?_valuesOf hnodup hmem
  rw [after_tag] at hget
  rw [hget]
  have hseries : (a.after before (Engine.fed rs)).value.series? =
      some ((Engine.fed rs).map fun r => (a.worth before r).map Sample.of).toArray := by
    have hvalue := Cell.series?_value (a.after before (Engine.fed rs)).cell
    rw [after_cell hs, Cell.slots?_after] at hvalue
    obtain ⟨slots, hslots⟩ := Option.isSome_iff_exists.mp hslots
    rw [hslots] at hvalue
    rw [Accumulator.value, after_cell hs]
    exact hvalue
  revert hseries
  cases (a.after before (Engine.fed rs)).value <;> simp [Value.series?]

/-- Two runs over the same records in two orders end with the same counts, rejections and
failures. The numbers that no sum goes into are the same, and a series has for each fed record
the same slot in both. -/
theorem run_rearranged (he : Engine.withSelection catalog selection settings = .ok e)
    (hskip : settings.policy = .skip) (hp : rs.Perm rs') (ending : Ending) :
    ∃ s s', (e.after rs).finish ending = .ok s ∧ (e.after rs').finish ending = .ok s' ∧
      s.processed = s'.processed ∧ s.failed = s'.failed ∧ s.unusable = s'.unusable ∧
      s.rejections = s'.rejections ∧ s.failures = s'.failures ∧
      (∀ t ∈ [requestCount, minRequestTimestamp, maxResponseTimestamp, benchmarkDuration,
        requestThroughput], s.value? t.text = s'.value? t.text) ∧
      (Engine.fed rs).Perm (Engine.fed rs') ∧
      ∀ d ∈ e.order, ∀ definition, catalog.get? d.tag = some definition →
        definition.fresh.cell.slots?.isSome → ∃ slot : Record → Option Sample,
          s.value? d.tag.text = some (.series ((Engine.fed rs).map slot).toArray) ∧
          s'.value? d.tag.text = some (.series ((Engine.fed rs').map slot).toArray) := by
  obtain ⟨hstopped, hstopped', _, _⟩ := concluded_alike he hskip hp
  obtain ⟨results, hfinish⟩ := Engine.finish_ok hstopped ending
  obtain ⟨results', hfinish'⟩ := Engine.finish_ok hstopped' ending
  have hrun := reached he hskip rs
  have hrun' := reached he hskip rs'
  have hfailures : (e.after rs).failures.report = (e.after rs').failures.report := by
    rw [hrun.failures, hrun'.failures]
    exact FailureTally.report_eq_of_perm (hp.filterMap _)
  refine ⟨_, _, hfinish, hfinish', ?_, ?_, ?_, rejections_eq he hskip hp, ?_, ?_, fed_perm hp, ?_⟩
  · show (e.after rs).processed = (e.after rs').processed
    rw [hrun.processed, hrun'.processed, hp.length_eq]
  · show (e.after rs).failed = (e.after rs').failed
    rw [hrun.failed, hrun'.failed, hp.countP_eq]
  · show (e.after rs).unusable = (e.after rs').unusable
    rw [hrun.unusable, hrun'.unusable, hp.countP_eq]
  · cases ending with
    | completed => exact hfailures
    | cancelled => exact congrArg (fun f => { f with wasCancelled := true }) hfailures
  · intro t ht
    exact value?_settledScalars he hskip hp ht
  · intro d hd definition hget hslots
    obtain ⟨before, _, rest, hms, definition', hget', hdescriptor, rfl⟩ :=
      Engine.exists_split_of_forall₂ (Engine.metrics_of_withSelection he) hd
    have hsame : definition' = definition := Option.some.inj (hget'.symm.trans hget)
    subst hsame
    have htag : definition'.fresh.tag = d.tag := by
      rw [← hdescriptor]
      exact congrArg Descriptor.tag (fresh_descriptor definition' (mem_of_get? hget).1)
    refine ⟨fun r => (definition'.fresh.worth before r).map Sample.of, ?_⟩
    rw [← htag]
    exact ⟨value?_series he hskip rs hms hslots, value?_series he hskip rs' hms hslots⟩

theorem run_rearranged_mixed :
    ∃ e, Engine.withSelection catalog [tokenThroughputPerUser, requestThroughput] .default =
        .ok e ∧
      ∃ s s', (e.after Engine.mixed).finish .cancelled = .ok s ∧
        (e.after Engine.mixed.reverse).finish .cancelled = .ok s' ∧
        s.rejections = s'.rejections ∧ s.failures = s'.failures ∧
        s.value? requestThroughput.text = s'.value? requestThroughput.text := by
  refine ⟨_, rfl, ?_⟩
  obtain ⟨s, s', hs, hs', _, _, _, hrejections, hfailures, hvalues, _⟩ :=
    @run_rearranged [tokenThroughputPerUser, requestThroughput] .default _ Engine.mixed
      Engine.mixed.reverse rfl rfl (List.reverse_perm _).symm .cancelled
  exact ⟨s, s', hs, hs', hrejections, hfailures, hvalues requestThroughput (by decide)⟩

end Standard
end BenchMetrics
