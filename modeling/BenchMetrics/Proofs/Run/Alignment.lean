import BenchMetrics.Proofs.Run.Completion
import BenchMetrics.Proofs.Run.Rate
import BenchMetrics.Proofs.Run.Slots

/-! Whose slots the series of a run hold. Series over the standard metrics hold the slots of the
same calls exactly as long as no call ends between them; behind a call that does, the rate of a
single user is taken over latencies that are not its own. -/
namespace BenchMetrics
open Accumulator EvaluationOrder

namespace Standard

/-- The rates of a single user behind the latencies: the rate at an index is taken over the
latency at that index, whatever calls both come from. -/
structure Trailing (latencies rates : Array (Option Sample)) : Prop where
  behind : rates.size ≤ latencies.size
  rate : ∀ k < rates.size, rates[k]? = some ((Cell.rateOf interTokenLatency "inter token latency"
    latencies[k]?.join).toOption.map Sample.of)

section
variable {latencies rates : Array (Option Sample)}

theorem Trailing.push_latency (h : Trailing latencies rates) (x : Option Sample) :
    Trailing (latencies.push x) rates := by
  have hbehind := h.behind
  refine ⟨?_, ?_⟩
  · rw [Array.size_push]
    omega
  · intro k hk
    rw [h.rate k hk, Array.getElem?_push, if_neg (by omega)]

theorem Trailing.push_rate (h : Trailing latencies rates) (hlt : rates.size < latencies.size) :
    Trailing latencies (rates.push ((Cell.rateOf interTokenLatency "inter token latency"
      latencies[rates.size]?.join).toOption.map Sample.of)) := by
  refine ⟨?_, ?_⟩
  · rw [Array.size_push]
    omega
  · intro k hk
    rw [Array.size_push] at hk
    rw [Array.getElem?_push]
    by_cases hlast : k = rates.size
    · rw [if_pos hlast, hlast]
    · rw [if_neg hlast, h.rate k (by omega)]

end

variable {selection : List Tag} {settings : Settings} {e : Engine}

theorem slotted (he : Engine.withSelection catalog selection settings = .ok e) : e.Slotted := by
  intro a ha hslots
  have hmem := (mem_of_get? (get?_tag he ha)).1
  exact takesRecords_of_slots? hmem hslots

theorem slotsAt_eq_empty (he : Engine.withSelection catalog selection settings = .ok e) {n : Nat}
    {slots : Array (Option Sample)} (h : e.slotsAt n = some slots) : slots = #[] := by
  obtain ⟨a, ha, hcell⟩ := Option.bind_eq_some_iff.mp h
  rcases Cell.slots?_of_isNew (isNew_of_withSelection he (List.mem_of_getElem? ha)) with hnone | hnew
  · rw [hcell] at hnone
    cases hnone
  · rw [hcell] at hnew
    exact Option.some.inj hnew

/-- What a series holds, whatever was refused in between. -/
theorem series_after (he : Engine.withSelection catalog selection settings = .ok e)
    {rs : List Record} {n : Nat} {b : Accumulator} (hb : (e.after rs).metrics[n]? = some b)
    {compute : Record → Except Fault Float} {slots : Array (Option Sample)}
    (hcell : b.cell = .series compute slots) :
    slots.toList = (e.owners rs n).map fun c => (compute c.record).toOption.map Sample.of := by
  have hkept : (e.metrics.map emptied)[n]? = some b.emptied := by
    rw [← Engine.map_emptied_after e rs, List.getElem?_map, hb]
    rfl
  rw [List.getElem?_map, Option.map_eq_some_iff] at hkept
  obtain ⟨a, ha, hab⟩ := hkept
  -- the series as the run started from it
  have hstart : a.cell = .series compute #[] := by
    rw [← Cell.emptied_of_isNew (isNew_of_withSelection he (List.mem_of_getElem? ha)),
      cell_of_emptied hab, hcell]
    rfl
  have howned := Engine.series_owned (slotted he) ha hstart rs
  rw [hb, Option.some.injEq] at howned
  rw [howned, Cell.series.injEq] at hcell
  rw [← hcell.2]

section
variable {before between rest : List Accumulator} {latency perUser : Accumulator}

/-- In a run that aborts the rates fall behind, and are taken over the latencies that come
first. -/
theorem trailing_after (he : Engine.withSelection catalog selection settings = .ok e)
    (hms : e.metrics = before ++ latency :: between ++ perUser :: rest)
    (hpaired : Paired before between latency perUser) (rs : List Record) :
    ∃ latencies rates, (e.after rs).slotsAt before.length = some latencies ∧
      (e.after rs).metrics[(before ++ latency :: between).length]? = some ⟨perUser.descriptor,
        .rate interTokenLatency "inter token latency" rates.size rates⟩ ∧
      Trailing latencies rates := by
  have hlatency : e.metrics[before.length]? = some latency := by
    rw [hms]
    simp
  have hperUser : e.metrics[(before ++ latency :: between).length]? = some perUser := by
    rw [hms, List.getElem?_append_right (Nat.le_refl _), Nat.sub_self]
    rfl
  have hlt : before.length < (before ++ latency :: between).length := by
    rw [List.length_append, List.length_cons]
    omega
  generalize (before ++ latency :: between).length = m at hperUser hlt ⊢
  -- a call that gets to the rate has got to the latency, so that no rate comes before its latency
  induction rs using List.reverseRecOn with
  | nil =>
    refine ⟨#[], #[], ?_, ?_, ⟨Nat.le_refl _, fun k hk => absurd hk (Nat.not_lt_zero k)⟩⟩
    · rw [show e.after [] = e from rfl, Engine.slotsAt, hlatency, Option.bind_some,
        hpaired.latency_cell]
      rfl
    · rw [show e.after [] = e from rfl, hperUser, Array.size_empty, ← hpaired.perUser_cell]
  | append_singleton rs r ih =>
    obtain ⟨latencies, rates, hlatencies, hrates, htrailing⟩ := ih
    have hslotted := (slotted he).after rs
    obtain ⟨x, hstep⟩ := Engine.slotsAt_process hslotted hlatencies r
    have hstep' := Engine.getElem?_process hslotted (r := r) hrates rfl
    rw [Engine.after_snoc]
    by_cases hreach : Engine.Call.reaches ⟨e.after rs, r⟩ m
    · -- both take a slot, the rate over what the latency has at its cursor by then
      have hearlier := Engine.Call.reaches_of_le (Nat.le_of_lt hlt) hreach
      rw [if_pos hearlier] at hstep
      rw [if_pos hreach] at hstep'
      have hfirst : latency.tag ∉
          ((e.after rs).metrics.take before.length).map (·.tag) := by
        rw [List.map_take, map_tag_of_emptied (Engine.map_emptied_after e rs), hms]
        simpa using hpaired.first
      have howned := Engine.series_owned (slotted he) hlatency hpaired.latency_cell rs
      have hshown := Engine.slotAt_viewAt hslotted hlt howned rfl hpaired.latency_tag
        (hpaired.latency_tag ▸ hfirst) hreach hstep rates.size
      refine ⟨_, _, hstep, ?_, (htrailing.push_latency x).push_rate ?_⟩
      · rw [hstep', Array.size_push]
        simp only [Cell.slotIn, Cell.push, hshown]
      · have hbehind := htrailing.behind
        rw [Array.size_push]
        omega
    · rw [if_neg hreach] at hstep'
      refine ⟨_, rates, hstep, hstep', ?_⟩
      split
      · exact htrailing.push_latency x
      · exact htrailing

end

/-- Whose slots the series of a run hold, when the caller goes on after calls that are refused.
They are aligned exactly if no call ends at or behind one of them and in front of another, so that
they are if no call is refused. Each has one slot for every call that filled it, in order: in a
series, what the record of that call is worth. The rate of a single user is taken, at each index,
over the latency at the same index; that is the latency of its own record if the series are
aligned. -/
theorem slots_aligned_iff (he : Engine.withSelection catalog selection settings = .ok e)
    (rs : List Record) :
    (e.Aligned rs ↔ e.Unbroken rs) ∧
    ((∀ c ∈ e.calls rs, (c.engine.process c.record).2 = .ok ()) → e.Aligned rs) ∧
    (∀ n slots, (e.after rs).slotsAt n = some slots → slots.size = (e.owners rs n).length) ∧
    (∀ n b compute slots, (e.after rs).metrics[n]? = some b → b.cell = .series compute slots →
      slots.toList = (e.owners rs n).map fun c => (compute c.record).toOption.map Sample.of) ∧
    (tokenThroughputPerUser ∈ tagsOf e.order → ∃ (n m : Nat) (latency perUser : Accumulator)
        (latencies rates : Array (Option Sample)),
      (e.after rs).metrics[n]? = some latency ∧ latency.tag = interTokenLatency ∧
      latency.cell = .series Measure.interTokenLatency latencies ∧
      (e.after rs).metrics[m]? = some perUser ∧ perUser.tag = tokenThroughputPerUser ∧
      perUser.cell = .rate interTokenLatency "inter token latency" rates.size rates ∧
      Trailing latencies rates ∧
      (e.Aligned rs → ∀ (k : Nat) (c : Engine.Call), (e.owners rs m)[k]? = some c →
        rates[k]? = some ((Cell.rateOf interTokenLatency "inter token latency"
          ((Measure.interTokenLatency c.record).toOption.map .of)).toOption.map Sample.of))) := by
  have hslotted := slotted he
  have hnew : ∀ n slots, e.slotsAt n = some slots → slots = #[] := fun n slots =>
    slotsAt_eq_empty he
  have haligned := Engine.aligned_iff hslotted hnew rs
  refine ⟨haligned, ?_, fun n slots => Engine.size_owners hslotted hnew,
    fun n b compute slots hb hcell => series_after he hb hcell, ?_⟩
  · intro hok
    exact haligned.mpr (Engine.unbroken_of_accepted hok)
  intro hu
  obtain ⟨before, latency, between, perUser, rest, hms, hpaired⟩ := exists_paired he hu
  obtain ⟨latencies, rates, hlatencies, hrates, htrailing⟩ := trailing_after he hms hpaired rs
  have howned := Engine.series_owned hslotted (n := before.length) (a := latency)
    (by rw [hms]; simp) hpaired.latency_cell rs
  have hsame := hlatencies
  rw [Engine.slotsAt, howned, Option.bind_some] at hsame
  refine ⟨before.length, (before ++ latency :: between).length, _, _, latencies, rates, howned,
    hpaired.latency_tag, ?_, hrates, hpaired.perUser_tag, rfl, htrailing, ?_⟩
  · rw [← Option.some.inj hsame]
  · intro haligned k c hc
    have hrates' : (e.after rs).slotsAt (before ++ latency :: between).length = some rates := by
      rw [Engine.slotsAt, hrates]
      rfl
    have hk : k < rates.size := by
      rw [Engine.size_owners hslotted hnew hrates']
      exact (List.getElem?_eq_some_iff.mp hc).1
    -- the slot of the latency at this index comes from the same call
    rw [← (haligned _ _ _ _ hlatencies hrates').2] at hc
    have hlatency : latencies[k]? =
        some ((Measure.interTokenLatency c.record).toOption.map .of) := by
      rw [← Option.some.inj hsame, List.getElem?_toArray, List.getElem?_map, hc]
      rfl
    rw [htrailing.rate k hk, hlatency]
    rfl

/-- An answered request whose input tokens were not counted. -/
def uncounted : Record := .answered 100 [150, 190]

def counted : Record := { Record.answered 200 [250, 270] with inputTokens := some 7 }

/-- An answered request whose responses came at once, so that it has no rate. -/
def atOnce : Record := { Record.answered 300 [350, 350] with inputTokens := some 5 }

/-- A run that aborts, of which the second call is refused: by the rate of a single user, which is
the last series, and by then the others have their slots. -/
theorem slots_aligned_iff_refused :
    ∃ e, Engine.withSelection catalog [interTokenLatency, inputLength, tokenThroughputPerUser]
        { Settings.default with policy := .abort } = .ok e ∧
      ((e.after [counted]).process atOnce).2 =
        .error (.rejected tokenThroughputPerUser (.zeroValue "inter token latency")) ∧
      e.Aligned [counted, atOnce, counted] := by
  refine ⟨_, rfl, rfl, ?_⟩
  apply (@slots_aligned_iff [interTokenLatency, inputLength, tokenThroughputPerUser]
    { Settings.default with policy := .abort } _ rfl [counted, atOnce, counted]).1.mpr
  refine Engine.unbroken_of_reaches (fun m hm => (?_ : m ≤ 2)) (by decide +kernel)
  by_contra hbehind
  rw [Engine.slotsAt, List.getElem?_eq_none (Nat.not_le.mp hbehind)] at hm
  cases hm

/-- The input length refuses the first record, so that the rate of a single user has one slot
only. It comes from the second call, and is taken over the latency of the first record. -/
theorem aborting_misaligns :
    ∃ e, Engine.withSelection catalog [interTokenLatency, inputLength, tokenThroughputPerUser]
        { Settings.default with policy := .abort } = .ok e ∧
      (e.after [uncounted, counted]).slotsAt 0 = some #[some (.of 40.0), some (.of 20.0)] ∧
      (e.after [uncounted, counted]).slotsAt 1 = some #[none, some (.of 7.0)] ∧
      (e.after [uncounted, counted]).slotsAt 2 = some #[some (.of (1e9 / 40.0))] ∧
      (e.owners [uncounted, counted] 2).map (·.record.startNs) = [200] ∧
      ¬ e.Aligned [uncounted, counted] := by
  refine ⟨_, rfl, by decide +kernel, by decide +kernel, by decide +kernel, by decide +kernel, ?_⟩
  intro haligned
  have hsizes := (haligned 0 2 #[some (.of 40.0), some (.of 20.0)] #[some (.of (1e9 / 40.0))]
    (by decide +kernel) (by decide +kernel)).1
  exact absurd hsizes (by decide)

end Standard
end BenchMetrics
