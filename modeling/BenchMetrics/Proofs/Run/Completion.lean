import BenchMetrics.Proofs.Run.Rearrangement
import BenchMetrics.Proofs.Run.Sweep

/-! A run over the standard metrics comes to a summary. Whatever the records, a metric that takes
them has nothing worse to say of one than that it is rejected, and a summary metric nothing worse
than that it has no value: no error that is fatal can be reached. -/
namespace BenchMetrics
open Accumulator EvaluationOrder

/-- A series is found under a tag if every metric of that tag keeps one, and there is one. -/
theorem View.series_found {v : View} {t : Tag} (hmem : t ∈ v.map (·.tag))
    (hall : ∀ x ∈ v, x.tag = t → ∃ slots, x.value = .series slots) (owner : Tag) :
    ∃ slots, v.series owner t = .ok slots := by
  obtain ⟨y, hy, hyt⟩ := List.mem_map.mp hmem
  cases hf : v.find? t with
  | none =>
    have hnot := List.find?_eq_none.mp hf y hy
    simp [hyt] at hnot
  | some x =>
    have hxt : x.tag = t := by simpa using List.find?_some (p := fun y : Exposed => y.tag = t) hf
    obtain ⟨slots, hx⟩ := hall x (List.mem_of_find?_eq_some hf) hxt
    refine ⟨slots, ?_⟩
    rw [View.series, View.demand, hf, Option.bind_some, hx]
    rfl

namespace Standard

variable {selection : List Tag} {settings : Settings} {e : Engine}

theorem tag_fresh {t : Tag} {d : Definition} (hd : catalog.get? t = some d) : d.fresh.tag = t := by
  obtain ⟨hmem, rfl⟩ := mem_of_get? hd
  exact congrArg Descriptor.tag (fresh_descriptor d hmem)

/-- Where the order has a tag, the engine evaluates the metric that is registered under it. -/
theorem exists_registered (he : Engine.withSelection catalog selection settings = .ok e) {t : Tag}
    (ht : t ∈ tagsOf e.order) {d : Definition} (hd : catalog.get? t = some d) :
    ∃ before rest, e.metrics = before ++ d.fresh :: rest := by
  obtain ⟨descriptor, hmem, rfl⟩ := List.mem_map.mp ht
  obtain ⟨before, a, rest, hms, definition, hget, _, rfl⟩ :=
    Engine.exists_split_of_forall₂ (Engine.metrics_of_withSelection he) hmem
  rw [hd, Option.some.injEq] at hget
  exact ⟨before, rest, hget ▸ hms⟩

theorem eq_fresh (he : Engine.withSelection catalog selection settings = .ok e) {a : Accumulator}
    (ha : a ∈ e.metrics) {d : Definition} (hd : catalog.get? a.tag = some d) : a = d.fresh := by
  rw [get?_tag he ha, Option.some.injEq] at hd
  rw [← hd]

theorem isNew_of_withSelection (he : Engine.withSelection catalog selection settings = .ok e)
    {a : Accumulator} (ha : a ∈ e.metrics) : a.cell.IsNew :=
  ((Engine.fresh_of_withSelection catalog_proper he).1.proper a ha).isNew

/-- What a metric of a run is, but for what it holds: the one that is registered. -/
theorem get?_of_emptied (he : Engine.withSelection catalog selection settings = .ok e)
    {a : Accumulator} (ha : a.emptied ∈ e.metrics.map emptied) :
    catalog.get? a.tag = some ⟨a.descriptor, a.emptied⟩ := by
  obtain ⟨b, hb, hba⟩ := List.mem_map.mp ha
  have hsame : b.emptied = b :=
    congrArg (Accumulator.mk b.descriptor) (Cell.emptied_of_isNew (isNew_of_withSelection he hb))
  have hget := get?_tag he hb
  rw [← hsame, hba] at hget
  exact hget

/-- A metric of a run starts as the one that is registered under its tag. -/
theorem emptied_eq_fresh (he : Engine.withSelection catalog selection settings = .ok e)
    {a : Accumulator} (ha : a.emptied ∈ e.metrics.map emptied) {d : Definition}
    (hd : catalog.get? a.tag = some d) : a.emptied = d.fresh := by
  rw [get?_of_emptied he ha, Option.some.injEq] at hd
  rw [← hd]

/-- What a standard metric gathers. Only the rate of a single user is taken over another metric. -/
theorem cell_cases {d : Definition} (hd : d ∈ catalog.definitions) :
    (∃ compute, d.fresh.cell = .series compute #[]) ∨
    d.fresh.cell = .fold Measure.requestCount (· + ·) none ∨
    d.fresh.cell = .timestamp Measure.requestStart min none ∨
    d.fresh.cell = .timestamp Measure.lastResponse max none ∨
    (∃ formula, d.fresh.cell = .derived formula none) ∨
    (d.tag = tokenThroughputPerUser ∧ interTokenLatency ∈ d.descriptor.required ∧
      d.fresh.cell = .rate interTokenLatency "inter token latency" 0 #[]) := by
  simp only [catalog, definitions, groups, List.flatten_cons, List.flatten_nil, List.append_nil,
    List.mem_append] at hd
  rcases hd with hd | hd | hd | hd
  · simp only [latencies, define, List.mem_cons, List.not_mem_nil, or_false] at hd
    rcases hd with rfl | rfl | rfl | rfl <;> exact Or.inl ⟨_, rfl⟩
  · simp only [lengths, define, List.mem_cons, List.not_mem_nil, or_false] at hd
    rcases hd with rfl | rfl | rfl
    · exact Or.inl ⟨_, rfl⟩
    · exact Or.inl ⟨_, rfl⟩
    · exact Or.inr (Or.inr (Or.inr (Or.inr (Or.inl ⟨_, rfl⟩))))
  · simp only [spans, define, List.mem_cons, List.not_mem_nil, or_false] at hd
    rcases hd with rfl | rfl | rfl | rfl
    · exact Or.inr (Or.inl rfl)
    · exact Or.inr (Or.inr (Or.inl rfl))
    · exact Or.inr (Or.inr (Or.inr (Or.inl rfl)))
    · exact Or.inr (Or.inr (Or.inr (Or.inr (Or.inl ⟨_, rfl⟩))))
  · simp only [throughputs, define, List.mem_cons, List.not_mem_nil, or_false] at hd
    rcases hd with rfl | rfl | rfl
    · exact Or.inr (Or.inr (Or.inr (Or.inr (Or.inl ⟨_, rfl⟩))))
    · exact Or.inr (Or.inr (Or.inr (Or.inr (Or.inl ⟨_, rfl⟩))))
    · exact Or.inr (Or.inr (Or.inr (Or.inr (Or.inr ⟨rfl, .head _, rfl⟩))))

/-- The one rate among the standard metrics requires the series that it is taken over. -/
theorem source_of_rate {d : Definition} (hd : d ∈ catalog.definitions) {source : Tag}
    {label : String} {cursor : Nat} {slots : Array (Option Sample)}
    (hcell : d.fresh.cell = .rate source label cursor slots) :
    source = interTokenLatency ∧ interTokenLatency ∈ d.descriptor.required := by
  rcases cell_cases hd with ⟨_, h⟩ | h | h | h | ⟨_, h⟩ | ⟨_, hrequired, h⟩ <;>
    rw [h] at hcell <;> cases hcell
  exact ⟨rfl, hrequired⟩

/-- The metrics that one requires stand in front of it. -/
theorem required_in_front (he : Engine.withSelection catalog selection settings = .ok e)
    {front rest : List Accumulator} {a : Accumulator}
    (hms : (front ++ a :: rest).map emptied = e.metrics.map emptied) {t : Tag}
    (ht : t ∈ a.descriptor.required) : t ∈ front.map (·.tag) := by
  have hdescriptors : (front ++ a :: rest).map (·.descriptor) = e.order := by
    rw [← map_descriptor he, map_descriptor_of_emptied hms]
  have hsplit : e.order =
      front.map (·.descriptor) ++ a.descriptor :: rest.map (·.descriptor) := by
    rw [← hdescriptors, List.map_append, List.map_cons]
  have hfirst := (Engine.withSelection_ok he).1.requiredFirst _ _ _ hsplit t ht
  rw [tagsOf, List.map_map] at hfirst
  exact hfirst

/-- What the metrics in front show has the inter-token latency as a series, if it is there. -/
theorem latency_found (he : Engine.withSelection catalog selection settings = .ok e)
    {done : List Accumulator} (hdone : ∀ b ∈ done, b.emptied ∈ e.metrics.map emptied)
    (hmem : interTokenLatency ∈ done.map (·.tag)) (owner : Tag) :
    ∃ slots, View.series (done.map exposed) owner interTokenLatency = .ok slots := by
  have htags : (done.map exposed).map (·.tag) = done.map (·.tag) := by
    rw [List.map_map]
    rfl
  apply View.series_found (htags ▸ hmem)
  intro x hx hxt
  obtain ⟨b, hb, rfl⟩ := List.mem_map.mp hx
  have hbt : b.tag = interTokenLatency := hxt
  have hfresh := emptied_eq_fresh he (hdone b hb) (by rw [hbt]; rfl)
  have hcell : b.cell.emptied = .series Measure.interTokenLatency #[] :=
    congrArg Accumulator.cell hfresh
  cases hc : b.cell with
  | series compute slots => exact ⟨slots, congrArg Cell.value hc⟩
  | fold | timestamp | derived | rate =>
    rw [hc] at hcell
    cases hcell

/-- In the pass for a record, all that a metric can say of it is that it is rejected: the rate of
a single user finds its series in front of it. -/
theorem rejected_of_update (he : Engine.withSelection catalog selection settings = .ok e)
    {front rest : List Accumulator} {a : Accumulator}
    (hms : (front ++ a :: rest).map emptied = e.metrics.map emptied)
    (hs : a.descriptor.stage.takesRecords) {done : List Accumulator}
    (hdone : done.map emptied = front.map emptied) {r : Record} {err : MetricError}
    (h : (a.update (some r) (done.map exposed)).2 = .error err) :
    ∃ fault, err = .rejected a.tag fault := by
  have hget := get?_of_emptied he (a := a) (by rw [← hms]; simp)
  have hmem := (mem_of_get? hget).1
  have htakes : a.cell.takesRecords := by
    have hown := (catalog_proper.own _ hmem (Or.inl hs)).2
    revert hown
    show a.cell.emptied.takesRecords = true → a.cell.takesRecords = true
    cases a.cell <;> exact id
  rcases Cell.error_of_update htakes h with hfault | ⟨source, label, cursor, slots, hcell, hseries⟩
  · exact hfault
  · -- the rate stands behind its series, so that it cannot have missed it
    exfalso
    have hrate : a.emptied.cell = .rate source label 0 #[] := by
      rw [emptied, hcell]
      rfl
    obtain ⟨rfl, hrequired⟩ := source_of_rate hmem hrate
    have hfront := required_in_front he hms hrequired
    rw [← map_tag_of_emptied hdone] at hfront
    have hdefined : ∀ b ∈ done, b.emptied ∈ e.metrics.map emptied := by
      intro b hb
      have hb' : b.emptied ∈ front.map emptied := hdone ▸ List.mem_map_of_mem hb
      rw [← hms, List.map_append]
      exact List.mem_append_left _ hb'
    obtain ⟨others, hothers⟩ := latency_found he hdefined hfront a.tag
    rw [hothers] at hseries
    cases hseries

/-- A summary metric that is given no value is given it by a formula, whose errors are not
fatal. -/
theorem not_fatal_of_conclude (he : Engine.withSelection catalog selection settings = .ok e)
    {a : Accumulator} (ha : a.emptied ∈ e.metrics.map emptied)
    (hs : a.descriptor.stage = .summary) {view : View} {err : MetricError}
    (h : (a.update none view).2 = .error err) : err.isFatal = false := by
  have hmem := (mem_of_get? (get?_of_emptied he ha)).1
  obtain ⟨formula, hfresh, hblind⟩ := (orderFree hmem).summary hs
  have hcell : a.cell.emptied = .derived formula none := hfresh
  -- without a record, the update is the formula and passes its error on
  rw [update_eq] at h
  cases hc : a.cell with
  | derived formula' current =>
    rw [hc, Cell.emptied, Cell.derived.injEq] at hcell
    obtain ⟨rfl, _⟩ := hcell
    rw [hc] at h
    cases hv : formula' view with
    | ok x => simp [Cell.update, hv] at h
    | error err' =>
      simp only [Cell.update, hv, Except.error.injEq] at h
      rw [← h]
      exact hblind.not_fatal hv
  | series | fold | timestamp | rate =>
    rw [hc] at hcell
    cases hcell

theorem concluded_stopped (he : Engine.withSelection catalog selection settings = .ok e)
    (rs : List Record) : (concluded e rs).stopped = none := by
  rw [concluded, Engine.summarizeFrom_eq_sweep]
  apply Engine.stopped_eq_none
  intro view a ha err hmet
  have hdefined : a.emptied ∈ e.metrics.map emptied := by
    rw [← Engine.map_emptied_after e rs]
    exact List.mem_map_of_mem ha
  rw [conclude] at hmet
  by_cases hs : a.descriptor.stage = .summary
  · rw [if_pos hs] at hmet
    apply not_fatal_of_conclude he hdefined hs
    rcases hu : a.update none view with ⟨b, err' | _⟩
    · rw [hu] at hmet
      exact congrArg Except.error (Option.some.inj hmet)
    · rw [hu] at hmet
      cases hmet
  · rw [if_neg hs] at hmet
    cases hmet

/-- A run over standard metrics, of any records and under either policy, comes to a summary, also
if the caller goes on after a call that was refused. A call is refused only under the policy that
aborts, with the rejection of the record by a metric. All that a metric can say of a record is
that it is rejected, and all that a summary metric can say is nothing fatal. -/
theorem run_completes (he : Engine.withSelection catalog selection settings = .ok e)
    (rs : List Record) :
    (settings.policy = .skip → ∀ r, ((e.after rs).process r).2 = .ok ()) ∧
    (∀ r err, ((e.after rs).process r).2 = .error err →
      ∃ metric fault, err = .rejected metric fault) ∧
    (∀ ending, ∃ s, (e.after rs).finish ending = .ok s) ∧
    (∀ r front a rest, (e.after rs).metrics = front ++ a :: rest →
      a.descriptor.stage.takesRecords → ∀ err,
        (a.update (some r)
          ((Engine.feedFrom settings.policy r [] front).metrics.map exposed)).2 = .error err →
        ∃ fault, err = .rejected a.tag fault) ∧
    ∀ front a rest, (e.after rs).metrics = front ++ a :: rest →
      a.descriptor.stage = .summary → ∀ err,
        (a.update none ((Engine.summarizeFrom [] front).metrics.map exposed)).2 = .error err →
        err.isFatal = false := by
  obtain ⟨hfresh, hset⟩ := Engine.fresh_of_withSelection catalog_proper he
  have hkept := Engine.map_emptied_after e rs
  refine ⟨?_, ?_, ?_, ?_, ?_⟩
  · intro hskip r
    exact hfresh.process_ok (by rw [hset, hskip]) rs r
  · intro r err h
    by_cases hfed : Engine.classify r = .fed
    · -- the call was stopped at some metric, by what that metric said
      have hstopped : ((e.after rs).pass r).stopped = some err := by
        rw [Engine.process_of_fed hfed, Engine.Pass.result] at h
        cases hstop : ((e.after rs).pass r).stopped with
        | none => rw [hstop] at h; cases h
        | some err' => rw [hstop] at h; rw [Except.error.inj h]
      rw [Engine.pass, Engine.feedFrom_eq_sweep] at hstopped
      obtain ⟨front, a, rest, done, ts, hms, hdone, hmet, _⟩ := Engine.exists_of_stopped hstopped
      obtain ⟨hs, b, hu, _⟩ := offer_refused hmet
      have hdone' : done.map emptied = front.map emptied := by
        rw [← Engine.map_emptied_sweep (offer_keeps r) _ [] front, hdone]
      obtain ⟨fault, hfault⟩ := rejected_of_update he (hms ▸ hkept) hs hdone' (congrArg Prod.snd hu)
      exact ⟨a.tag, fault, hfault⟩
    · rw [(Engine.process_of_not_fed hfed).1] at h
      cases h
  · intro ending
    obtain ⟨results, hfinish⟩ := Engine.finish_ok (concluded_stopped he rs) ending
    exact ⟨_, hfinish⟩
  · intro r front a rest hms hs err h
    rw [Engine.feedFrom_eq_sweep] at h
    exact rejected_of_update he (hms ▸ hkept) hs (Engine.map_emptied_sweep (offer_keeps r) _ _ _) h
  · intro front a rest hms hs err h
    apply not_fatal_of_conclude he _ hs h
    rw [← hkept, hms]
    simp

/-- All standard metrics under the policy that aborts: a record whose responses are out of order
is refused, and the run ends in a summary all the same. -/
theorem run_completes_aborting :
    ∃ e, Engine.withSelection catalog catalog.tags { Settings.default with policy := .abort } =
        .ok e ∧
      (∃ err, ((e.after [.answered 100 []]).process (.answered 100 [190, 150])).2 = .error err ∧
        ∃ metric fault, err = .rejected metric fault) ∧
      ∃ s, (e.after Engine.mixed).finish .cancelled = .ok s := by
  refine ⟨_, rfl, ?_, ?_⟩
  · have hcalls := (@run_completes catalog.tags { Settings.default with policy := .abort } _ rfl
      [.answered 100 []]).2.1
    exact ⟨_, rfl, hcalls (.answered 100 [190, 150]) _ rfl⟩
  · exact (@run_completes catalog.tags { Settings.default with policy := .abort } _ rfl
      Engine.mixed).2.2.1 .cancelled

end Standard
end BenchMetrics
