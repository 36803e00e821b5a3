import BenchMetrics.Proofs.Measure.Acceptance
import BenchMetrics.Proofs.Run.Outcome
import BenchMetrics.Proofs.Run.Rate

/-! The tallies of a run side by side. Each metric that takes records rejects exactly those of the
fed records that its measurement does not accept, so that a metric that accepts no record which
another rejects has a tally no smaller. -/
namespace BenchMetrics
open Accumulator EvaluationOrder

namespace Standard

/-- Whether the metric under a tag accepts a record, the inter-token latency of that record being
all that it is shown. -/
def accepts (t : Tag) (r : Record) : Bool :=
  ((catalog.get? t).bind fun d => d.fresh.cell.worth r
    [(interTokenLatency, (Measure.interTokenLatency r).toOption.map .of)]).isSome

theorem isSome_toOption {ε α : Type} (x : Except ε α) : x.toOption.isSome = x.isOk := by
  cases x <;> rfl

section
variable (t : Tag) {d : Definition} (hd : catalog.get? t = some d) (r : Record)
include hd

theorem accepts_of_series {compute : Record → Except Fault Float}
    (hcell : d.fresh.cell = .series compute #[]) : accepts t r = (compute r).isOk := by
  rw [accepts, hd, Option.bind_some, hcell]
  exact isSome_toOption (compute r)

theorem accepts_of_fold {compute : Record → Except Fault Float} {combine : Float → Float → Float}
    (hcell : d.fresh.cell = .fold compute combine none) : accepts t r = (compute r).isOk := by
  rw [accepts, hd, Option.bind_some, hcell]
  exact isSome_toOption (compute r)

theorem accepts_of_timestamp {compute : Record → Except Fault Int64}
    {combine : Int64 → Int64 → Int64} (hcell : d.fresh.cell = .timestamp compute combine none) :
    accepts t r = (compute r).isOk := by
  rw [accepts, hd, Option.bind_some, hcell]
  exact Option.isSome_map.trans (isSome_toOption (compute r))

end

/-- Without a latency there is no rate to be taken over it. -/
theorem accepts_of_perUser {r : Record} (h : accepts tokenThroughputPerUser r) :
    accepts interTokenLatency r := by
  rw [accepts_of_series interTokenLatency rfl r rfl]
  change (Cell.rateOf interTokenLatency "inter token latency"
    ((Measure.interTokenLatency r).toOption.map .of)).toOption.isSome at h
  cases hlatency : Measure.interTokenLatency r with
  | ok x => rfl
  | error fault =>
    rw [hlatency] at h
    cases h

/-- The rate of a single user is the only standard metric that is shown others. -/
theorem worth_eq_of_ne_perUser {d : Definition} (hd : d ∈ catalog.definitions)
    (ht : d.tag ≠ tokenThroughputPerUser) (r : Record) (shown shown' : Shown) :
    d.fresh.cell.worth r shown = d.fresh.cell.worth r shown' := by
  rcases cell_cases hd with ⟨_, h⟩ | h | h | h | ⟨_, h⟩ | ⟨hperUser, _, h⟩ <;> rw [h]
  -- what the first five are worth is said without what they are shown
  · rfl
  · rfl
  · rfl
  · rfl
  · rfl
  · exact absurd hperUser ht

variable {selection : List Tag} {settings : Settings} {e : Engine} {t t' : Tag}

section
variable (he : Engine.withSelection catalog selection settings = .ok e)
  (hskip : settings.policy = .skip) (rs : List Record)
include he hskip

theorem rejectionsOf_perUser (ht : tokenThroughputPerUser ∈ tagsOf e.order) :
    (e.after rs).rejectionsOf tokenThroughputPerUser =
      (Engine.fed rs).countP fun r => !accepts tokenThroughputPerUser r := by
  obtain ⟨before, latency, between, perUser, rest, hms, hpaired⟩ := exists_paired he ht
  have hcell := hpaired.perUser_cell
  rw [← hpaired.latency_tag] at hcell
  have haccounts := (reached he hskip rs).accounts
    (Engine.nodup_of_withSelection catalog_proper he) hms hpaired.perUser_fed
  -- the slot of the latency for a record is what is measured of this very record
  rw [← hpaired.perUser_tag, haccounts.counted]
  apply List.countP_congr
  intro r _
  rw [worth_rate hcell hpaired.latency_cell hpaired.latency_fed hpaired.first r,
    hpaired.latency_tag, hpaired.perUser_tag, ← Option.not_isSome]
  exact Iff.rfl

/-- A metric rejects the fed records that it does not accept. -/
theorem rejectionsOf_eq (ht : t ∈ tagsOf e.order)
    (hs : (catalog.get? t).any fun d => d.fresh.descriptor.stage.takesRecords) :
    (e.after rs).rejectionsOf t = (Engine.fed rs).countP fun r => !accepts t r := by
  by_cases hrate : t = tokenThroughputPerUser
  · subst hrate
    exact rejectionsOf_perUser he hskip rs ht
  · obtain ⟨d, hd, htakes⟩ := (Option.any_eq_true _ _).mp hs
    obtain ⟨before, _, htally⟩ := recorded he hskip ht hd htakes rs
    obtain ⟨hmem, rfl⟩ := mem_of_get? hd
    -- any other metric does not look at what it is shown
    rw [htally]
    apply List.countP_congr
    intro r _
    rw [worth, worth_eq_of_ne_perUser hmem hrate r _
      [(interTokenLatency, (Measure.interTokenLatency r).toOption.map .of)], accepts, hd,
      Option.bind_some, ← Option.not_isSome]

/-- A metric that accepts of the usable records only what another accepts rejects no fewer. -/
theorem rejectionsOf_le (ht : t ∈ tagsOf e.order) (ht' : t' ∈ tagsOf e.order)
    (hs : (catalog.get? t).any fun d => d.fresh.descriptor.stage.takesRecords)
    (hs' : (catalog.get? t').any fun d => d.fresh.descriptor.stage.takesRecords)
    (h : ∀ r : Record, r.isUsable → accepts t' r → accepts t r) :
    (e.after rs).rejectionsOf t ≤ (e.after rs).rejectionsOf t' := by
  rw [rejectionsOf_eq he hskip rs ht hs, rejectionsOf_eq he hskip rs ht' hs']
  apply List.countP_mono_left
  intro r hr hrejected
  rw [Engine.fed_eq_filter] at hr
  have husable : r.isUsable := (Bool.and_eq_true_iff.mp (List.mem_filter.mp hr).2).2
  rw [Bool.not_eq_true', Bool.eq_false_iff] at hrejected ⊢
  exact fun haccepted => hrejected (h r husable haccepted)

end

/-- The metrics that ask of a usable record that it was answered in order, and nothing else. -/
def answered : List Tag := [requestCount, minRequestTimestamp, maxResponseTimestamp]

/-- The metrics that measure between times, and so ask for that among other things. -/
def timed : List Tag := [requestLatency, timeToFirst, timeToSecond, interTokenLatency]

theorem accepts_answered {r : Record} (h : r.isUsable) :
    ∀ t ∈ answered, accepts t r = (Measure.requestCount r).isOk := by
  obtain ⟨hstart, hlast⟩ := Measure.isOk_answered h
  simp only [answered, List.forall_mem_cons, List.not_mem_nil, false_implies, implies_true,
    and_true]
  refine ⟨accepts_of_fold requestCount rfl r rfl, ?_, ?_⟩
  · rw [accepts_of_timestamp minRequestTimestamp rfl r rfl, hstart]
  · rw [accepts_of_timestamp maxResponseTimestamp rfl r rfl, hstart, hlast]

theorem requestCount_of_accepts {r : Record} (hr : r.isUsable) (ht : t ∈ answered ++ timed)
    (h : accepts t r) : (Measure.requestCount r).isOk := by
  -- the answered ones accept what the count does, and each of the others has its own reason
  rcases List.mem_append.mp ht with hanswered | htimed
  · rw [← accepts_answered hr t hanswered]
    exact h
  · simp only [timed, List.mem_cons, List.not_mem_nil, or_false] at htimed
    rcases htimed with rfl | rfl | rfl | rfl
    · rw [accepts_of_series requestLatency rfl r rfl] at h
      exact Measure.isOk_requestCount_of_requestLatency h
    · rw [accepts_of_series timeToFirst rfl r rfl] at h
      apply Measure.isOk_requestCount_of_requestLatency
      exact Measure.isOk_requestLatency_of_timeToFirst h
    · rw [accepts_of_series timeToSecond rfl r rfl] at h
      exact Measure.isOk_requestCount_of_timeToSecond h
    · rw [accepts_of_series interTokenLatency rfl r rfl] at h
      exact Measure.isOk_requestCount_of_interTokenLatency h

theorem rejectionsOf_answered_le (he : Engine.withSelection catalog selection settings = .ok e)
    (hskip : settings.policy = .skip) (rs : List Record) (ht : t ∈ answered)
    (ht' : t' ∈ answered ++ timed) (hmem : t ∈ tagsOf e.order) (hmem' : t' ∈ tagsOf e.order) :
    (e.after rs).rejectionsOf t ≤ (e.after rs).rejectionsOf t' := by
  have htakes : ∀ t ∈ answered ++ timed,
      (catalog.get? t).any fun d => d.fresh.descriptor.stage.takesRecords := by decide
  apply rejectionsOf_le he hskip rs hmem hmem' (htakes t (List.mem_append_left _ ht))
    (htakes t' ht')
  intro r hr haccepts
  rw [accepts_answered hr t ht]
  exact requestCount_of_accepts hr ht' haccepts

/-- The tallies of a run, compared where it evaluates both metrics. -/
structure Graded (order : List Tag) (tally : Tag → Nat) : Prop where
  same : ∀ t ∈ answered, ∀ t' ∈ answered, t ∈ order → t' ∈ order → tally t = tally t'
  least : ∀ t ∈ answered, ∀ t' ∈ timed, t ∈ order → t' ∈ order → tally t ≤ tally t'
  first : requestLatency ∈ order → timeToFirst ∈ order → tally requestLatency ≤ tally timeToFirst
  tokens : outputLength ∈ order → interTokenLatency ∈ order →
    tally outputLength ≤ tally interTokenLatency
  perUser : tokenThroughputPerUser ∈ order → interTokenLatency ∈ order ∧
    tally interTokenLatency ≤ tally tokenThroughputPerUser

theorem graded_after (he : Engine.withSelection catalog selection settings = .ok e)
    (hskip : settings.policy = .skip) (rs : List Record) :
    Graded (tagsOf e.order) (e.after rs).rejectionsOf where
  same := by
    intro t ht t' ht' hmem hmem'
    apply Nat.le_antisymm
    · exact rejectionsOf_answered_le he hskip rs ht (List.mem_append_left timed ht') hmem hmem'
    · exact rejectionsOf_answered_le he hskip rs ht' (List.mem_append_left timed ht) hmem' hmem
  least := by
    intro t ht t' ht'
    exact rejectionsOf_answered_le he hskip rs ht (List.mem_append_right answered ht')
  first := by
    intro hlast hfirst
    apply rejectionsOf_le he hskip rs hlast hfirst rfl rfl
    intro r _ haccepts
    rw [accepts_of_series timeToFirst rfl r rfl] at haccepts
    rw [accepts_of_series requestLatency rfl r rfl]
    exact Measure.isOk_requestLatency_of_timeToFirst haccepts
  tokens := by
    intro hlength hlatency
    apply rejectionsOf_le he hskip rs hlength hlatency rfl rfl
    intro r _ haccepts
    rw [accepts_of_series interTokenLatency rfl r rfl] at haccepts
    rw [accepts_of_series outputLength rfl r rfl]
    exact Measure.isOk_outputLength_of_interTokenLatency haccepts
  perUser := by
    intro hperUser
    have hlatency : interTokenLatency ∈ tagsOf e.order :=
      mem_order_of_required he hperUser ⟨_, rfl, .head _⟩
    refine ⟨hlatency, ?_⟩
    apply rejectionsOf_le he hskip rs hlatency hperUser rfl rfl
    intro r _
    exact accepts_of_perUser

/-- The standard metrics that take records accept one after another. Of a usable record the count,
the first start and the last response ask the same. One that has a time to its first response has
also one to its last, and it is no shorter. Each latency asks for what the count asks for, and the
inter-token latency for what the output length asks for. So are the tallies of every run that
skips, the rate of a single user coming last. -/
theorem acceptance_graded :
    (∀ r : Record, r.isUsable →
      (Measure.requestCount r).isOk = (Measure.requestStart r).isOk ∧
      (Measure.requestStart r).isOk = (Measure.lastResponse r).isOk ∧
      ((Measure.timeToFirst r).isOk →
        Measure.timeToFirst r =
          .ok (Float.ofInt ((Measure.firstOf r.times).toInt - r.startNs.toInt)) ∧
        Measure.requestLatency r =
          .ok (Float.ofInt ((Measure.lastOf r.times).toInt - r.startNs.toInt)) ∧
        0 ≤ (Measure.firstOf r.times).toInt - r.startNs.toInt ∧
        (Measure.firstOf r.times).toInt - r.startNs.toInt ≤
          (Measure.lastOf r.times).toInt - r.startNs.toInt) ∧
      ((Measure.requestLatency r).isOk ∨ (Measure.timeToSecond r).isOk ∨
        (Measure.interTokenLatency r).isOk → (Measure.requestCount r).isOk) ∧
      ((Measure.interTokenLatency r).isOk → (Measure.outputLength r).isOk)) ∧
    ∀ selection settings e, Engine.withSelection catalog selection settings = .ok e →
      settings.policy = .skip → ∀ rs, Graded (tagsOf e.order) (e.after rs).rejectionsOf := by
  refine ⟨?_, fun selection settings e he hskip rs => graded_after he hskip rs⟩
  intro r hr
  obtain ⟨hstart, hlast⟩ := Measure.isOk_answered hr
  refine ⟨hstart, hlast, Measure.latencies_of_timeToFirst, ?_,
    Measure.isOk_outputLength_of_interTokenLatency⟩
  rintro (h | h | h)
  · exact Measure.isOk_requestCount_of_requestLatency h
  · exact Measure.isOk_requestCount_of_timeToSecond h
  · exact Measure.isOk_requestCount_of_interTokenLatency h

/-- A record that all metrics accept, one that is answered out of order, one whose first response
is before its dispatch, one with a single response, and one whose responses come at once. -/
def steps : List Record := [
  .answered 100 [150, 190], .answered 100 [190, 150], .answered 100 [50, 120],
  .answered 100 [150], .answered 100 [150, 150]]

theorem acceptance_graded_steps :
    Measure.requestLatency (.answered 100 [150, 190]) = .ok (Float.ofInt 90) ∧
    (Measure.requestCount (.answered 100 [150, 190])).isOk ∧
    ∃ e, Engine.withSelection catalog catalog.tags .default = .ok e ∧
      (e.after steps).rejectionsOf requestCount =
        (e.after steps).rejectionsOf maxResponseTimestamp ∧
      (e.after steps).rejectionsOf requestCount ≤ (e.after steps).rejectionsOf requestLatency ∧
      (e.after steps).rejectionsOf requestLatency ≤ (e.after steps).rejectionsOf timeToFirst ∧
      (e.after steps).rejectionsOf outputLength ≤
        (e.after steps).rejectionsOf interTokenLatency ∧
      (e.after steps).rejectionsOf interTokenLatency ≤
        (e.after steps).rejectionsOf tokenThroughputPerUser := by
  obtain ⟨_, _, hlatencies, hcount, _⟩ :=
    acceptance_graded.1 (.answered 100 [150, 190]) (by decide)
  obtain ⟨_, hlatency, _⟩ := hlatencies rfl
  refine ⟨hlatency, hcount (Or.inl rfl), _, rfl, ?_⟩
  have hgraded := acceptance_graded.2 catalog.tags .default _ rfl rfl steps
  exact ⟨hgraded.same _ (by decide) _ (by decide) (by decide) (by decide),
    hgraded.least _ (by decide) _ (by decide) (by decide) (by decide),
    hgraded.first (by decide) (by decide), hgraded.tokens (by decide) (by decide),
    (hgraded.perUser (by decide)).2⟩

end Standard
end BenchMetrics
