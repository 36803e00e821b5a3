import BenchMetrics.Proofs.Run.Completion

/-! Rates over an earlier series. A rate keeps in step with the series it is taken over: both
have a slot for every fed record, and the slots at one place belong to one record. -/
namespace BenchMetrics
open Accumulator EvaluationOrder

namespace Accumulator

theorem showAll_append (r : Record) (ms rest : List Accumulator) :
    ∃ more, showAll r (ms ++ rest) = showAll r ms ++ more := by
  induction rest using List.reverseRecOn with
  | nil => exact ⟨[], by simp⟩
  | append_singleton rest a ih =>
    obtain ⟨more, hmore⟩ := ih
    rw [← List.append_assoc, showAll_snoc, hmore, List.append_assoc]
    exact ⟨_, rfl⟩

theorem keys_showAll (r : Record) (ms : List Accumulator) :
    (showAll r ms).map Prod.fst = ms.map (·.tag) := by
  induction ms using List.reverseRecOn with
  | nil => rfl
  | append_singleton ms a ih =>
    rw [showAll_snoc, List.map_append, ih, List.map_append]
    rfl

/-- What a metric shows is found under its tag, if no earlier metric has that tag. -/
theorem lookup_showAll {before : List Accumulator} {a : Accumulator}
    (h : a.tag ∉ before.map (·.tag)) (r : Record) (rest : List Accumulator) :
    (showAll r (before ++ a :: rest)).lookup a.tag =
      some (a.shown r (showAll r before)).2 := by
  have hsplit : before ++ a :: rest = (before ++ [a]) ++ rest := by simp
  obtain ⟨more, hmore⟩ := showAll_append r (before ++ [a]) rest
  have hnone : (showAll r before).lookup a.tag = none := by
    rw [List.lookup_eq_none_iff]
    intro p hp
    have hkey : p.1 ∈ before.map (·.tag) := by
      rw [← keys_showAll r before]
      exact List.mem_map_of_mem hp
    rw [bne_iff_ne]
    intro heq
    exact h (heq ▸ hkey)
  rw [hsplit, hmore, showAll_snoc, List.append_assoc, List.lookup_append, hnone, Option.none_or,
    List.singleton_append, List.lookup_cons]
  simp [shown]

/-- Over a series, a rate is worth what the number that the series has for the record gives. -/
theorem worth_rate {u s : Accumulator} {label : String} {cursor : Nat}
    {rates latencies : Array (Option Sample)} {compute : Record → Except Fault Float}
    {before between : List Accumulator} (hu : u.cell = .rate s.tag label cursor rates)
    (hs : s.cell = .series compute latencies) (hfed : s.descriptor.stage.takesRecords)
    (hnew : s.tag ∉ before.map (·.tag)) (r : Record) :
    u.worth (before ++ s :: between) r =
      (Cell.rateOf s.tag label ((compute r).toOption.map .of)).toOption := by
  rw [Accumulator.worth, hu, Cell.worth, lookup_showAll hnew]
  simp only [shown, hfed, ↓reduceIte, hs, Cell.slot, Cell.slots?, Cell.worth, Option.bind_some,
    Option.join_some]

end Accumulator

/-- The series of the first metric under a tag is found there. -/
theorem View.series_of_first {before rest : View} {x : Exposed} {slots : Array (Option Sample)}
    (h : x.tag ∉ before.map (·.tag)) (hx : x.value = .series slots) (owner : Tag) :
    View.series (before ++ x :: rest) owner x.tag = .ok slots := by
  rw [View.series, View.demand, View.find?_of_first h, Option.bind_some, hx]
  rfl

/-- In what metrics expose after records, a series that is the first under its tag is found there
with a slot for every record. -/
theorem Accumulator.series_of_settled {before between : List Accumulator} {s : Accumulator}
    {compute : Record → Except Fault Float} {slots : Array (Option Sample)}
    (hs : s.cell = .series compute slots) (hfed : s.descriptor.stage.takesRecords)
    (hnew : s.tag ∉ before.map (·.tag)) (fs : List Record) (owner : Tag) :
    View.series ((settled fs [] (before ++ s :: between)).map exposed) owner s.tag =
      .ok (fs.map fun r => (compute r).toOption.map Sample.of).toArray := by
  have hcell : (s.after before fs).cell =
      .series compute (fs.map fun r => (compute r).toOption.map Sample.of).toArray := by
    rw [after_cell hfed, hs, Cell.after]
    congr
    funext r
    rw [worth, hs]
    rfl
  have htags : ((settled fs [] before).map exposed).map (·.tag) = before.map (·.tag) := by
    rw [List.map_map, ← tags_settled fs [] before]
    rfl
  rw [settled_append, List.map_append, List.nil_append, settled, List.map_cons,
    ← after_tag s before fs]
  have hfirst : (s.after before fs).exposed.tag ∉
      ((settled fs [] before).map exposed).map (·.tag) := by
    rw [htags]
    rw [← after_tag s before fs] at hnew
    exact hnew
  exact View.series_of_first hfirst (congrArg Cell.value hcell) owner

namespace Standard

variable {selection : List Tag} {settings : Settings} {e : Engine}

/-- No standard metric requires the rate of a single user. -/
theorem not_requires_perUser (t : Tag) : ¬ Requires catalog t tokenThroughputPerUser := by
  intro h
  obtain ⟨d, hd, hreq⟩ := h
  have hall : ∀ d ∈ catalog.definitions, tokenThroughputPerUser ∉ d.descriptor.required := by
    decide
  exact hall d (mem_of_get? hd).1 hreq

/-- The inter-token latency after the metrics `before`, and the rate of a single user after that
and those `between`, as a run starts from them. -/
structure Paired (before between : List Accumulator) (latency perUser : Accumulator) : Prop where
  latency_tag : latency.tag = interTokenLatency
  perUser_tag : perUser.tag = tokenThroughputPerUser
  latency_fed : latency.descriptor.stage.takesRecords
  perUser_fed : perUser.descriptor.stage.takesRecords
  latency_cell : latency.cell = .series Measure.interTokenLatency #[]
  perUser_cell : perUser.cell = .rate interTokenLatency "inter token latency" 0 #[]
  first : latency.tag ∉ before.map (·.tag)

/-- The order puts the latency before the rate, which requires it. -/
theorem exists_paired (he : Engine.withSelection catalog selection settings = .ok e)
    (hu : tokenThroughputPerUser ∈ tagsOf e.order) :
    ∃ before latency between perUser rest,
      e.metrics = before ++ latency :: between ++ perUser :: rest ∧
      Paired before between latency perUser := by
  obtain ⟨front, rest, hms⟩ := exists_registered he hu rfl
  have hkept := congrArg (List.map emptied) hms.symm
  obtain ⟨latency, hmem, htag⟩ := List.mem_map.mp (required_in_front he hkept (.head _))
  obtain ⟨before, between, rfl⟩ := List.append_of_mem hmem
  obtain rfl := eq_fresh he (a := latency) (by rw [hms]; simp) (by rw [htag]; rfl)
  have hnew : interTokenLatency ∉ before.map (·.tag) := by
    have hn := nodup_tags he
    rw [hms, List.append_assoc, List.map_append] at hn
    intro hmem
    exact (List.nodup_append.mp hn).2.2 _ hmem _ (.head _) rfl
  exact ⟨before, _, between, _, rest, hms, rfl, rfl, rfl, rfl, rfl, rfl, hnew⟩

/-- A run that is not streaming never orders the rate of a single user. -/
theorem perUser_not_ordered (he : Engine.withSelection catalog selection settings = .ok e)
    (hstream : settings.streaming = false) : tokenThroughputPerUser ∉ tagsOf e.order := by
  intro hu
  obtain ⟨s, hs, hsu⟩ := ((Engine.withSelection_ok he).1.mem_iff _).mp hu
  rcases Relation.ReflTransGen.cases_tail hsu with heq | ⟨t, _, hreq⟩
  · have hkept := (List.mem_filter.mp hs).2
    rw [← heq, Engine.kept, hstream] at hkept
    exact absurd hkept (by decide)
  · exact not_requires_perUser t hreq

theorem perUser_ordered (he : Engine.withSelection catalog selection settings = .ok e)
    (hsel : tokenThroughputPerUser ∈ selection) (hstream : settings.streaming = true) :
    tokenThroughputPerUser ∈ tagsOf e.order := by
  apply ((Engine.withSelection_ok he).1.mem_iff _).mpr
  refine ⟨tokenThroughputPerUser, List.mem_filter.mpr ⟨hsel, ?_⟩, .refl⟩
  rw [Engine.kept, hstream]
  rfl

/-- The series of the latency and of the rate after the records `fs`, with the cursor of the
rate: the slots at one place belong to one record, and the rate is a billion over the latency if
there is one above zero. -/
structure InStep (fs : List Record) (latencies rates : Array (Option Sample)) (cursor : Nat) :
    Prop where
  cursor_rates : cursor = rates.size
  cursor_latencies : cursor = latencies.size
  cursor_fed : cursor = fs.length
  latency : ∀ (i : Nat) (r : Record), fs[i]? = some r →
    latencies[i]? = some ((Measure.interTokenLatency r).toOption.map Sample.of)
  rate : ∀ i : Nat, i < cursor → rates[i]? = some (latencies[i]?.join.bind fun x =>
    if x.toFloat ≤ 0.0 then none else some (Sample.of (nanosPerSecond / x.toFloat)))

theorem inStep_of_fed (fs : List Record) :
    InStep fs (fs.map fun r => (Measure.interTokenLatency r).toOption.map Sample.of).toArray
      (fs.map fun r => (Cell.rateOf interTokenLatency "inter token latency"
        ((Measure.interTokenLatency r).toOption.map .of)).toOption.map Sample.of).toArray
      fs.length := by
  refine ⟨by simp, by simp, rfl, ?_, ?_⟩
  · intro i r hr
    simp [hr]
  · intro i hi
    have hr : fs[i]? = some fs[i] := List.getElem?_eq_getElem hi
    simp only [List.getElem?_toArray, List.getElem?_map, hr, Option.map_some, Option.join_some]
    cases (Measure.interTokenLatency fs[i]).toOption with
    | none => rfl
    | some x =>
      simp only [Option.map_some, Cell.rateOf, Option.bind_some]
      split <;> rfl

section
variable {before between : List Accumulator} {latency perUser : Accumulator}

theorem Paired.latency_after (h : Paired before between latency perUser) (fs : List Record) :
    (latency.after before fs).cell = .series Measure.interTokenLatency
      (fs.map fun r => (Measure.interTokenLatency r).toOption.map Sample.of).toArray := by
  have hworth : latency.worth before = fun r => (Measure.interTokenLatency r).toOption := by
    funext r
    rw [Accumulator.worth, h.latency_cell]
    rfl
  rw [after_cell h.latency_fed, h.latency_cell, hworth]
  rfl

theorem Paired.perUser_after (h : Paired before between latency perUser) (fs : List Record) :
    (perUser.after (before ++ latency :: between) fs).cell =
      .rate interTokenLatency "inter token latency" fs.length
        (fs.map fun r => (Cell.rateOf interTokenLatency "inter token latency"
          ((Measure.interTokenLatency r).toOption.map .of)).toOption.map Sample.of).toArray := by
  have hworth : perUser.worth (before ++ latency :: between) = fun r =>
      (Cell.rateOf interTokenLatency "inter token latency"
        ((Measure.interTokenLatency r).toOption.map .of)).toOption := by
    funext r
    have hcell := h.perUser_cell
    rw [← h.latency_tag] at hcell ⊢
    exact worth_rate hcell h.latency_cell h.latency_fed h.first r
  rw [after_cell h.perUser_fed, h.perUser_cell, hworth]
  rfl

/-- In the pass for a record, the metrics in front of the rate show it a latency that has a slot
for that record already. -/
theorem Paired.latency_in_view (h : Paired before between latency perUser)
    (hproper : ∀ a ∈ before ++ latency :: between, a.Proper) (fs : List Record) (r : Record) :
    View.series ((Engine.feedFrom .skip r [] (settled fs [] (before ++ latency :: between))
      ).metrics.map exposed) tokenThroughputPerUser interTokenLatency =
        .ok ((fs ++ [r]).map fun r =>
          (Measure.interTokenLatency r).toOption.map Sample.of).toArray := by
  rw [Engine.pass_settled hproper, ← h.latency_tag]
  exact series_of_settled h.latency_cell h.latency_fed h.first (fs ++ [r]) tokenThroughputPerUser

end

/-- The rate of a single user keeps in step with the inter-token latency over every run that
skips. In every call it is given a view that has the latency, with a slot at the cursor. -/
theorem perUser_in_step (he : Engine.withSelection catalog selection settings = .ok e)
    (hskip : settings.policy = .skip) (hsel : tokenThroughputPerUser ∈ selection)
    (rs : List Record) :
    (settings.streaming = false → tokenThroughputPerUser ∉ tagsOf e.order) ∧
    (settings.streaming = true → ∃ before latency between perUser rest latencies cursor rates,
      (e.after rs).metrics = before ++ latency :: between ++ perUser :: rest ∧
      latency.tag = interTokenLatency ∧
      latency.cell = .series Measure.interTokenLatency latencies ∧
      perUser.tag = tokenThroughputPerUser ∧
      perUser.cell = .rate interTokenLatency "inter token latency" cursor rates ∧
      InStep (Engine.fed rs) latencies rates cursor ∧
      ∀ r, ∃ (view : View) (slots : Array (Option Sample)),
        view = (Engine.feedFrom .skip r [] (before ++ latency :: between)).metrics.map
          Accumulator.exposed ∧
        (Engine.feedFrom .skip r [] (e.after rs).metrics).metrics =
          (Engine.feedFrom .skip r [] (before ++ latency :: between)).metrics ++
            (Engine.feedFrom .skip r view (perUser :: rest)).metrics ∧
        View.series view tokenThroughputPerUser interTokenLatency = .ok slots ∧
        cursor < slots.size) := by
  refine ⟨perUser_not_ordered he, fun hstream => ?_⟩
  obtain ⟨before, latency, between, perUser, rest, hms, hpaired⟩ :=
    exists_paired he (perUser_ordered he hsel hstream)
  obtain ⟨hfresh, hset⟩ := Engine.fresh_of_withSelection catalog_proper he
  have hrun := hfresh.reached_after (by rw [hset, hskip]) rs
  have hproper : ∀ a ∈ before ++ latency :: between ++ perUser :: rest, a.Proper := by
    rw [← hms]
    exact hfresh.proper
  have hfront : settled (Engine.fed rs) [] before ++ latency.after before (Engine.fed rs) ::
      settled (Engine.fed rs) (before ++ [latency]) between =
        settled (Engine.fed rs) [] (before ++ latency :: between) := by
    rw [settled_append]
    rfl
  refine ⟨settled (Engine.fed rs) [] before, latency.after before (Engine.fed rs),
    settled (Engine.fed rs) (before ++ [latency]) between,
    perUser.after (before ++ latency :: between) (Engine.fed rs),
    settled (Engine.fed rs) (before ++ latency :: between ++ [perUser]) rest, _, _, _,
    ?_, ?_, hpaired.latency_after _, ?_, hpaired.perUser_after _, inStep_of_fed _, ?_⟩
  · rw [hfront, hrun.metrics, hms, settled_append]
    rfl
  · rw [after_tag, hpaired.latency_tag]
  · rw [after_tag, hpaired.perUser_tag]
  · intro r
    rw [hfront, hrun.metrics, hms]
    refine ⟨_, _, rfl, Engine.feedFrom_append hproper _ r, hpaired.latency_in_view ?_ _ r, ?_⟩
    · intro a ha
      exact hproper a (List.mem_append_left _ ha)
    · simp

theorem perUser_in_step_mixed :
    ∃ e, Engine.withSelection catalog [tokenThroughputPerUser] .default = .ok e ∧
      ∃ perUser ∈ (e.after Engine.mixed).metrics, ∃ latencies rates,
        perUser.cell = .rate interTokenLatency "inter token latency" 2 rates ∧
        InStep (Engine.fed Engine.mixed) latencies rates 2 := by
  refine ⟨_, rfl, ?_⟩
  obtain ⟨_, _, _, perUser, _, latencies, cursor, rates, hms, _, _, _, hcell, hstep, _⟩ :=
    (@perUser_in_step [tokenThroughputPerUser] .default _ rfl rfl (by decide) Engine.mixed).2 rfl
  have hcursor : cursor = 2 := hstep.cursor_fed
  subst hcursor
  exact ⟨perUser, by rw [hms]; simp, latencies, rates, hcell, hstep⟩

end Standard
end BenchMetrics
