import BenchMetrics.Proofs.Run.Course
import BenchMetrics.Proofs.Tally.Rejection

/-! The books of a run that skips. Every record is failed, unusable or fed; a metric that takes
records has a slot, or a rejection, for each fed one, and what it rejects is what is tallied
under its tag. -/
namespace BenchMetrics
open Accumulator Standard

/-- A request that was answered, each response bringing one token. -/
def Record.answered (startNs : Int64) (arrivals : List Int64) : Record :=
  .plain (.start .null startNs) (some (.ofNat arrivals.length))
    (arrivals.map (Extract.make · (some 1)))

namespace Engine

theorem refusing_append (r : Record) (before ms rest : List Accumulator) :
    refusing r before (ms ++ rest) =
      refusing r before ms ++ refusing r (before ++ ms) rest := by
  induction ms generalizing before with
  | nil => simp [refusing]
  | cons a ms ih =>
    simp only [List.cons_append, refusing, ih, List.append_assoc]
    split <;> rfl

theorem mem_of_refusing {r : Record} {before ms : List Accumulator} {t : Tag}
    (h : t ∈ refusing r before ms) :
    t ∈ (ms.filter (·.descriptor.stage.takesRecords)).map (·.tag) := by
  induction ms generalizing before with
  | nil => cases h
  | cons a ms ih =>
    rw [refusing] at h
    by_cases hs : a.descriptor.stage.takesRecords
    · simp only [List.filter_cons, hs, ↓reduceIte, List.map_cons]
      split at h
      · rcases List.mem_cons.mp h with rfl | h
        · exact .head _
        · exact .tail _ (ih h)
      · exact .tail _ (ih h)
    · simp only [List.filter_cons, hs] at h ⊢
      exact ih h

section
variable {ms before rest : List Accumulator} {a : Accumulator}

/-- A metric refuses a record at most once, and does when the record is worth nothing to it. -/
theorem count_refusing (hms : ms = before ++ a :: rest)
    (hn : ((ms.filter (·.descriptor.stage.takesRecords)).map (·.tag)).Nodup)
    (hs : a.descriptor.stage.takesRecords) (r : Record) :
    (refusing r [] ms).count a.tag = if a.worth before r = none then 1 else 0 := by
  subst hms
  simp only [List.filter_append, List.filter_cons, hs, ↓reduceIte, List.map_append,
    List.map_cons] at hn
  obtain ⟨_, hrest, hdis⟩ := List.nodup_append.mp hn
  -- no other metric refuses under this tag
  have hbefore : a.tag ∉ refusing r [] before := by
    intro hmem
    exact hdis _ (mem_of_refusing hmem) _ (.head _) rfl
  have hafter : a.tag ∉ refusing r (before ++ [a]) rest := by
    intro hmem
    exact (List.nodup_cons.mp hrest).1 (mem_of_refusing hmem)
  rw [refusing_append, List.count_append, List.count_eq_zero_of_not_mem hbefore,
    List.nil_append, refusing]
  by_cases hw : a.worth before r = none
  · rw [if_pos ⟨hs, hw⟩, if_pos hw, List.count_cons_self,
      List.count_eq_zero_of_not_mem hafter]
  · rw [if_neg (fun h => hw h.2), if_neg hw, List.count_eq_zero_of_not_mem hafter]

theorem count_refused (hms : ms = before ++ a :: rest)
    (hn : ((ms.filter (·.descriptor.stage.takesRecords)).map (·.tag)).Nodup)
    (hs : a.descriptor.stage.takesRecords) (fs : List Record) :
    (refused ms fs).count a.tag = fs.countP fun r => (a.worth before r).isNone := by
  induction fs with
  | nil => rfl
  | cons r fs ih =>
    have hr := count_refusing hms hn hs r
    rw [refused, List.flatMap_cons, List.count_append, hr, List.countP_cons, ← ih, refused]
    cases a.worth before r <;> simp [Nat.add_comm]

end

/-- What a run makes of one metric. `worth` says what a record is worth to it, and `refusals`
is its tally. -/
structure Accounts (fs : List Record) (worth : Record → Option Float) (refusals : Nat)
    (b : Accumulator) : Prop where
  slots : ∀ slots, b.value = .series slots → slots.toList = fs.map fun r => (worth r).map .of
  counted : refusals = fs.countP fun r => (worth r).isNone
  complete : fs.countP (fun r => (worth r).isSome) + refusals = fs.length

theorem countP_isSome_add_isNone {α β : Type} (f : α → Option β) (xs : List α) :
    xs.countP (fun x => (f x).isSome) + xs.countP (fun x => (f x).isNone) = xs.length := by
  have hnone : (fun x => (f x).isNone) = fun x => decide ¬ (f x).isSome = true := by
    funext x
    cases f x <;> rfl
  rw [hnone, ← List.length_eq_countP_add_countP]

/-- Each record is failed, unusable or fed, and none is two of them. -/
theorem length_classes (rs : List Record) :
    (fed rs).length + rs.countP (·.failure.isSome) +
      rs.countP (fun r => classify r = .unusable) = rs.length := by
  induction rs with
  | nil => rfl
  | cons r rs ih =>
    have hfed : fed (r :: rs) = if classify r = .fed then r :: fed rs else fed rs := by
      by_cases h : classify r = .fed <;> simp [fed, h]
    rw [hfed, List.countP_cons, List.countP_cons, List.length_cons, ← ih]
    cases hc : classify r with
    | failed f =>
      have hf := classify_eq_failed.mp hc
      simp [hf]
      omega
    | unusable =>
      have hf : r.failure = none := failure_eq_none (by simp [hc])
      simp [hf]
      omega
    | fed =>
      have hf : r.failure = none := failure_eq_none (by simp [hc])
      simp [hf]
      omega

theorem exists_split_of_forall₂ {α β : Type} {R : α → β → Prop} {xs : List α} {ys : List β}
    (h : List.Forall₂ R xs ys) {x : α} (hx : x ∈ xs) :
    ∃ before y rest, ys = before ++ y :: rest ∧ R x y := by
  induction h with
  | nil => cases hx
  | @cons x' y' xs ys hxy _ ih =>
    rcases List.mem_cons.mp hx with rfl | hx
    · exact ⟨[], y', ys, rfl, hxy⟩
    · obtain ⟨before, y, rest, rfl, hxy⟩ := ih hx
      exact ⟨y' :: before, y, rest, rfl, hxy⟩

/-- The metric of a new engine for an ordered descriptor that takes records. -/
theorem exists_metric {c : Catalog} (hc : c.Proper) {selection : List Tag} {settings : Settings}
    {e : Engine} (he : withSelection c selection settings = .ok e) {d : Descriptor}
    (hd : d ∈ e.order) (hs : d.stage.takesRecords) :
    ∃ before a rest, e.metrics = before ++ a :: rest ∧ a.descriptor = d ∧
      ∃ definition, c.get? d.tag = some definition ∧ definition.fresh = a := by
  obtain ⟨before, a, rest, hms, definition, hget, rfl, rfl⟩ :=
    exists_split_of_forall₂ (metrics_of_withSelection he) hd
  have hmem := (EvaluationOrder.mem_of_get? hget).1
  exact ⟨before, _, rest, hms, (hc.own definition hmem (Or.inl hs)).1, definition, hget, rfl⟩

theorem Reached.accounts {e₀ e : Engine} {rs : List Record} (h : Reached e₀ rs e)
    (hn : ((e₀.metrics.filter (·.descriptor.stage.takesRecords)).map (·.tag)).Nodup)
    {before rest : List Accumulator} {a : Accumulator} (hms : e₀.metrics = before ++ a :: rest)
    (hs : a.descriptor.stage.takesRecords) :
    Accounts (fed rs) (a.worth before) (e.rejectionsOf a.tag) (a.after before (fed rs)) := by
  have hcount : e.rejectionsOf a.tag =
      (fed rs).countP fun r => (a.worth before r).isNone := by
    rw [rejectionsOf, h.rejections, getD_foldl_tally, count_refused hms hn hs]
    exact Nat.zero_add _
  refine ⟨?_, hcount, ?_⟩
  · intro slots hv
    have hslots : (a.after before (fed rs)).cell.slots? = some slots := by
      rw [← Cell.series?_value]
      exact congrArg Value.series? hv
    rw [after_cell hs, Cell.slots?_after, Option.map_eq_some_iff] at hslots
    obtain ⟨_, _, rfl⟩ := hslots
    rfl
  · rw [hcount]
    exact countP_isSome_add_isNone (a.worth before) (fed rs)

/-- In the call for a fed record, a metric rejects it exactly if it is worth nothing to it. -/
theorem Fresh.rejects_iff {e : Engine} (h : e.Fresh) (hskip : e.settings.policy = .skip)
    (hn : ((e.metrics.filter (·.descriptor.stage.takesRecords)).map (·.tag)).Nodup)
    {before rest : List Accumulator} {a : Accumulator} (hms : e.metrics = before ++ a :: rest)
    (hs : a.descriptor.stage.takesRecords) (rs : List Record) (r : Record) :
    a.tag ∈ (feedFrom .skip r [] (e.after rs).metrics).rejected ↔ a.worth before r = none := by
  rw [(h.reached_after hskip rs).metrics, pass_settled h.proper, ← List.count_pos_iff,
    count_refusing hms hn hs]
  by_cases hw : a.worth before r = none <;> simp [hw]

/-- The books of a run that skips, over metrics that may compute anything. Every record is
failed, unusable or fed, and no call is refused. Each ordered metric that takes records has, for
what a record is worth to it, the slots and the tally that the fed records make; and a call
rejects a fed record for it exactly if the record is worth nothing. -/
theorem run_accounts {c : Catalog} (hc : c.Proper) {selection : List Tag} {settings : Settings}
    {e : Engine} (he : withSelection c selection settings = .ok e)
    (hskip : settings.policy = .skip) (rs : List Record) :
    (∀ r, ((e.after rs).process r).2 = .ok ()) ∧
    (e.after rs).processed = rs.length ∧
    (e.after rs).failed = rs.countP (·.failure.isSome) ∧
    (e.after rs).unusable = rs.countP (fun r => classify r = .unusable) ∧
    (fed rs).length + (e.after rs).failed + (e.after rs).unusable = (e.after rs).processed ∧
    (fed rs).length = (e.after rs).processed - (e.after rs).failed - (e.after rs).unusable ∧
    ∀ d ∈ e.order, d.stage.takesRecords → ∃ before a rest,
      e.metrics = before ++ a :: rest ∧ a.descriptor = d ∧
      (∃ definition, c.get? d.tag = some definition ∧ definition.fresh = a) ∧
      (∃ b ∈ (e.after rs).metrics, b.descriptor = d ∧
        Accounts (fed rs) (a.worth before) ((e.after rs).rejectionsOf d.tag) b) ∧
      ∀ r, classify r = .fed →
        (d.tag ∈ (feedFrom .skip r [] (e.after rs).metrics).rejected ↔
          a.worth before r = none) := by
  obtain ⟨hfresh, hset⟩ := fresh_of_withSelection hc he
  have hpol : e.settings.policy = .skip := by rw [hset, hskip]
  have hrun := hfresh.reached_after hpol rs
  have hlen := length_classes rs
  rw [← hrun.processed, ← hrun.failed, ← hrun.unusable] at hlen
  refine ⟨hfresh.process_ok hpol rs, hrun.processed, hrun.failed, hrun.unusable, hlen,
    by omega, ?_⟩
  intro d hd hs
  obtain ⟨before, a, rest, hms, rfl, hdef⟩ := exists_metric hc he hd hs
  have hn := nodup_of_withSelection hc he
  refine ⟨before, a, rest, hms, rfl, hdef, ⟨a.after before (fed rs), ?_, after_descriptor _ _ _,
    hrun.accounts hn hms hs⟩, fun r _ => hfresh.rejects_iff hpol hn hms hs rs r⟩
  rw [hrun.metrics, hms, settled_append, List.nil_append, settled]
  simp

/-- A failed request, one without responses, a good one, and one whose responses are out of
order. -/
def mixed : List Record := [
  .plain ((Request.start .null 100).fail ⟨none, none, "refused"⟩) none [],
  .answered 100 [], .answered 100 [150, 190, 240], .answered 100 [190, 150]]

theorem run_accounts_mixed :
    ∃ e, withSelection catalog [interTokenLatency, requestCount] .default = .ok e ∧
      (e.after mixed).failed = 1 ∧ (e.after mixed).unusable = 1 ∧ (fed mixed).length = 2 ∧
      ∃ b ∈ (e.after mixed).metrics, b.tag = interTokenLatency ∧
        Accounts (fed mixed) (fun r => (Measure.interTokenLatency r).toOption) 1 b := by
  refine ⟨_, rfl, ?_⟩
  obtain ⟨_, _, hfailed, hunusable, _, _, hmetrics⟩ :=
    @run_accounts catalog catalog_proper [interTokenLatency, requestCount] .default _ rfl rfl mixed
  refine ⟨hfailed, hunusable, rfl, ?_⟩
  obtain ⟨_, _, _, _, _, ⟨_, hget, rfl⟩, ⟨b, hb, hbd, haccounts⟩, _⟩ :=
    hmetrics (timeOf interTokenLatency "Inter Token Latency" .record true []) (by decide) rfl
  cases hget
  exact ⟨b, hb, congrArg Descriptor.tag hbd, haccounts⟩

/-- A metric that is derived, though records are offered to it, before a series. -/
def stalling : Catalog where
  definitions := [
    define (amountOf ⟨"first"⟩ "first" "things" .both false false [])
      (.derived · fun _ => .ok 0.0),
    define (amountOf ⟨"second"⟩ "second" "things" .record false false [])
      (.series · fun _ => .ok 1.0)]
  distinct := by decide

/-- The derived metric stops every pass, and the series has no slot for a record that was fed:
it is not enough that the metrics of the first stage accumulate over records. -/
theorem stalling_misses_slot :
    (∀ d ∈ stalling.definitions, d.descriptor.stage = .record →
      ∃ compute, d.fresh = .series d.descriptor compute) ∧
    ∃ e, withSelection stalling stalling.tags .default = .ok e ∧
      (fed [.answered 100 [150]]).length = 1 ∧
      ∃ b ∈ (e.after [.answered 100 [150]]).metrics, b.descriptor.stage = .record ∧
        b.value = .series #[] := by
  refine ⟨?_, _, rfl, rfl, ?_⟩
  · intro d hd hs
    simp only [stalling, List.mem_cons, List.not_mem_nil, or_false] at hd
    rcases hd with rfl | rfl
    · cases hs
    · exact ⟨_, rfl⟩
  · exact ⟨_, .tail _ (.head _), rfl, rfl⟩

end Engine
end BenchMetrics
