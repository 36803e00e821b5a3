import BenchMetrics.Proofs.Run.Course
import BenchMetrics.Proofs.Run.Refusal
import BenchMetrics.Proofs.Tally.Rejection

/-! Both passes of a run are sweeps: each metric takes its part in turn, shown what those in front
of it have become, and an error that it meets is noted or stops the sweep. What a sweep does is
said here once, for both passes and both policies. -/
namespace BenchMetrics

namespace Engine
open Accumulator

/-- Whether a pass ends at a metric that meets an error: a fatal one ends every pass, and any
error a strict one. -/
def halts (strict : Bool) (met : Option MetricError) : Bool :=
  met.any fun err => err.isFatal || strict

/-- What is noted of a metric: its tag, if it meets an error that is not fatal. -/
def noted (a : Accumulator) (met : Option MetricError) : List Tag :=
  if met.any (!·.isFatal) then [a.tag] else []

/-- A pass in which each metric has its part. -/
def sweep (strict : Bool) (part : Part) : View → List Accumulator → Pass
  | _, [] => ⟨[], [], none⟩
  | view, a :: rest =>
    let b := (part view a).1
    let met := (part view a).2
    if halts strict met then ⟨b :: rest, noted a met, met⟩
    else
      let p := sweep strict part (view ++ [b.exposed]) rest
      ⟨b :: p.metrics, noted a met ++ p.rejected, p.stopped⟩

theorem feedFrom_eq_sweep (policy : RejectionPolicy) (r : Record) (view : View)
    (ms : List Accumulator) :
    feedFrom policy r view ms = sweep (policy = .abort) (offer r) view ms := by
  induction ms generalizing view with
  | nil => rfl
  | cons a ms ih =>
    rw [feedFrom, sweep, offer]
    by_cases hs : a.descriptor.stage.takesRecords
    · rw [if_pos hs, if_pos hs]
      rcases a.update (some r) view with ⟨b, err | _⟩
      · -- a fatal error ends both; any other is noted, and ends both if the policy aborts
        by_cases hf : err.isFatal
        · simp [hf, halts, noted]
        · by_cases hp : policy = .abort <;> simp [hf, hp, halts, noted, ih, Pass.after]
      · simp [ih, halts, noted, Pass.after]
    · rw [if_neg hs, if_neg hs]
      simp [ih, halts, noted, Pass.after]

theorem summarizeFrom_eq_sweep (view : View) (ms : List Accumulator) :
    summarizeFrom view ms = sweep false conclude view ms := by
  induction ms generalizing view with
  | nil => rfl
  | cons a ms ih =>
    rw [summarizeFrom, sweep, conclude]
    by_cases hs : a.descriptor.stage = .summary
    · rw [if_pos hs, if_pos hs]
      rcases a.update none view with ⟨b, err | _⟩
      · by_cases hf : err.isFatal <;> simp [hf, halts, noted, ih, Pass.after]
      · simp [ih, halts, noted, Pass.after]
    · rw [if_neg hs, if_neg hs]
      simp [ih, halts, noted, Pass.after]

variable {strict : Bool} {part : Part} {view : View} {ms done : List Accumulator}
  {ts : List Tag} {err : MetricError}

/-- Whether it is stopped or not, a sweep keeps all metrics in their places. -/
theorem map_emptied_sweep (hpart : part.Keeps) (strict : Bool) (view : View)
    (ms : List Accumulator) :
    (sweep strict part view ms).metrics.map emptied = ms.map emptied := by
  induction ms generalizing view with
  | nil => rfl
  | cons a ms ih =>
    rw [sweep]
    split
    · rw [List.map_cons, hpart, List.map_cons]
    · rw [List.map_cons, hpart, ih, List.map_cons]

theorem length_sweep (hpart : part.Keeps) (strict : Bool) (view : View)
    (ms : List Accumulator) : (sweep strict part view ms).metrics.length = ms.length := by
  rw [← List.length_map (f := emptied), map_emptied_sweep hpart, List.length_map]

/-- What every part keeps, a sweep keeps of all metrics, those included that it does not get to. -/
theorem forall_mem_sweep {P : Accumulator → Prop} (hpart : ∀ view a, P a → P (part view a).1)
    (hms : ∀ a ∈ ms, P a) : ∀ a ∈ (sweep strict part view ms).metrics, P a := by
  induction ms generalizing view with
  | nil => exact hms
  | cons a ms ih =>
    obtain ⟨ha, hrest⟩ := List.forall_mem_cons.mp hms
    rw [sweep]
    split
    · exact List.forall_mem_cons.mpr ⟨hpart view a ha, hrest⟩
    · exact List.forall_mem_cons.mpr ⟨hpart view a ha, ih hrest⟩

/-- Only metrics of the sweep are noted. -/
theorem mem_of_rejected {t : Tag} (ht : t ∈ (sweep strict part view ms).rejected) :
    t ∈ ms.map (·.tag) := by
  have hnoted : ∀ {a : Accumulator} {met : Option MetricError}, t ∈ noted a met → t = a.tag := by
    intro a met h
    unfold noted at h
    split at h
    · exact List.mem_singleton.mp h
    · cases h
  induction ms generalizing view with
  | nil => cases ht
  | cons a ms ih =>
    rw [sweep] at ht
    rw [List.map_cons, List.mem_cons]
    split at ht
    · exact Or.inl (hnoted ht)
    · exact (List.mem_append.mp ht).imp hnoted ih

/-- A sweep that gets through some metrics goes on with the others. -/
theorem sweep_append_of_done (h : sweep strict part view ms = ⟨done, ts, none⟩)
    (rest : List Accumulator) :
    sweep strict part view (ms ++ rest) =
      let p := sweep strict part (view ++ done.map exposed) rest
      ⟨done ++ p.metrics, ts ++ p.rejected, p.stopped⟩ := by
  induction ms generalizing view done ts with
  | nil =>
    cases h
    simp
  | cons a ms ih =>
    rw [List.cons_append, sweep]
    rw [sweep] at h
    by_cases hh : halts strict (part view a).2
    · -- a sweep that halts has met an error
      rw [if_pos hh, Pass.mk.injEq] at h
      rw [h.2.2] at hh
      cases hh
    · rw [if_neg hh, Pass.mk.injEq] at h
      obtain ⟨rfl, rfl, hstop⟩ := h
      rw [if_neg hh, ih (congrArg (Pass.mk _ _) hstop)]
      simp

/-- A sweep that is stopped leaves the other metrics as they are. -/
theorem sweep_append_of_stopped (h : sweep strict part view ms = ⟨done, ts, some err⟩)
    (rest : List Accumulator) :
    sweep strict part view (ms ++ rest) = ⟨done ++ rest, ts, some err⟩ := by
  induction ms generalizing view done ts with
  | nil => cases h
  | cons a ms ih =>
    rw [List.cons_append, sweep]
    rw [sweep] at h
    by_cases hh : halts strict (part view a).2
    · rw [if_pos hh, Pass.mk.injEq] at h
      obtain ⟨rfl, rfl, hmet⟩ := h
      rw [if_pos hh, hmet, List.cons_append]
    · rw [if_neg hh, Pass.mk.injEq] at h
      obtain ⟨rfl, rfl, hstop⟩ := h
      rw [if_neg hh, ih (congrArg (Pass.mk _ _) hstop), List.cons_append]

/-- What a sweep makes of the metric at a place: its part, if the sweep gets there. -/
theorem sweep_getElem? {strict : Bool} {part : Part} {ms : List Accumulator}
    (hkeeps : part.Keeps) (view : View) {n : Nat} {a : Accumulator} (h : ms[n]? = some a) :
    (sweep strict part view ms).metrics[n]? =
      some (if (sweep strict part view (ms.take n)).stopped = none then
        (part (view ++ (sweep strict part view (ms.take n)).metrics.map exposed) a).1 else a) := by
  obtain ⟨hn, rfl⟩ := List.getElem?_eq_some_iff.mp h
  have hsplit : ms = ms.take n ++ ms[n] :: ms.drop (n + 1) := by
    rw [← List.drop_eq_getElem_cons hn, List.take_append_drop]
  have hlength : (sweep strict part view (ms.take n)).metrics.length = n := by
    rw [length_sweep hkeeps, List.length_take]
    omega
  generalize ms[n] = a at hsplit ⊢
  generalize ms.take n = front, ms.drop (n + 1) = rest at hsplit hlength ⊢
  rw [hsplit]
  rcases hp : sweep strict part view front with ⟨done, ts, _ | err⟩
  · rw [hp] at hlength
    rw [sweep_append_of_done hp, if_pos rfl, ← hlength]
    simp only [List.getElem?_append_right (Nat.le_refl _), Nat.sub_self]
    -- the metric is the first of the others, and has its part whether or not the sweep halts
    rw [sweep]
    split <;> rfl
  · rw [hp] at hlength
    rw [sweep_append_of_stopped hp, ← hlength]
    simp

/-- Where a sweep is stopped: a metric behind those that it got through meets the error, which is
fatal if the sweep is not strict. -/
theorem exists_of_stopped (h : (sweep strict part view ms).stopped = some err) :
    ∃ front a rest done ts, ms = front ++ a :: rest ∧
      sweep strict part view front = ⟨done, ts, none⟩ ∧
      (part (view ++ done.map exposed) a).2 = some err ∧ (err.isFatal || strict) = true := by
  induction ms generalizing view with
  | nil => cases h
  | cons a ms ih =>
    rw [sweep] at h
    by_cases hh : halts strict (part view a).2
    · rw [if_pos hh] at h
      have hmet : (part view a).2 = some err := h
      rw [hmet] at hh
      exact ⟨[], a, ms, [], [], rfl, rfl, by simpa using hmet, hh⟩
    · rw [if_neg hh] at h
      obtain ⟨front, c, rest, done, ts, rfl, hdone, hmet, hends⟩ := ih h
      refine ⟨a :: front, c, rest, (part view a).1 :: done, noted a (part view a).2 ++ ts, rfl,
        ?_, ?_, hends⟩
      · rw [sweep, if_neg hh, hdone]
      · rw [List.map_cons, ← List.singleton_append, ← List.append_assoc]
        exact hmet

/-- A sweep that is not strict is only stopped by fatal errors. -/
theorem stopped_eq_none (h : ∀ view, ∀ a ∈ ms, ∀ err, (part view a).2 = some err →
    err.isFatal = false) (view : View) : (sweep false part view ms).stopped = none := by
  cases hs : (sweep false part view ms).stopped with
  | none => rfl
  | some err =>
    obtain ⟨front, a, rest, done, ts, rfl, _, hmet, hends⟩ := exists_of_stopped hs
    rw [h _ a (by simp) err hmet] at hends
    cases hends

/-- The pass that a record makes. -/
def pass (e : Engine) (r : Record) : Pass := feedFrom e.settings.policy r [] e.metrics

theorem pass_of_skip {e : Engine} (h : e.settings.policy = .skip) (r : Record) :
    e.pass r = sweep false (offer r) [] e.metrics := by
  rw [pass, feedFrom_eq_sweep, h]
  rfl

/-- What a pass answers to the caller. -/
def Pass.result (p : Pass) : Except MetricError Unit :=
  match p.stopped with
  | some err => .error err
  | none => .ok ()

variable {e : Engine} {r : Record}

theorem process_of_fed (h : classify r = .fed) : e.process r =
    ({ e with
        processed := e.processed + 1
        metrics := (e.pass r).metrics
        rejections := (e.pass r).rejected.foldl tally e.rejections }, (e.pass r).result) := by
  rw [process, h]
  rfl

/-- A record that does not reach the metrics is never refused. -/
theorem process_of_not_fed (h : classify r ≠ .fed) : (e.process r).2 = .ok () ∧
    (e.process r).1.metrics = e.metrics ∧ (e.process r).1.rejections = e.rejections := by
  rw [process]
  cases hc : classify r with
  | failed f => exact ⟨rfl, rfl, rfl⟩
  | unusable => exact ⟨rfl, rfl, rfl⟩
  | fed => exact absurd hc h

theorem rejectionsOf_process_of_fed (h : classify r = .fed) (e : Engine) (t : Tag) :
    (e.process r).1.rejectionsOf t = e.rejectionsOf t + (e.pass r).rejected.count t := by
  rw [process_of_fed h]
  exact getD_foldl_tally e.rejections (e.pass r).rejected t

theorem rejectionsOf_process_of_not_fed (h : classify r ≠ .fed) (e : Engine) (t : Tag) :
    (e.process r).1.rejectionsOf t = e.rejectionsOf t := by
  rw [rejectionsOf, rejectionsOf, (process_of_not_fed h).2.2]

theorem settings_process (e : Engine) (r : Record) : (e.process r).1.settings = e.settings := by
  rw [process]
  cases classify r <;> rfl

theorem settings_after (e : Engine) (rs : List Record) : (e.after rs).settings = e.settings := by
  induction rs using List.reverseRecOn with
  | nil => rfl
  | append_singleton rs r ih => rw [after_snoc, settings_process, ih]

/-- A run changes what the metrics hold and nothing else of them, under either policy. -/
theorem map_emptied_after (e : Engine) (rs : List Record) :
    (e.after rs).metrics.map emptied = e.metrics.map emptied := by
  induction rs using List.reverseRecOn with
  | nil => rfl
  | append_singleton rs r ih =>
    rw [after_snoc, ← ih]
    by_cases h : classify r = .fed
    · rw [process_of_fed h]
      show ((e.after rs).pass r).metrics.map emptied = _
      rw [pass, feedFrom_eq_sweep, map_emptied_sweep (offer_keeps r)]
    · rw [(process_of_not_fed h).2.1]

/-- What a metric keeps when it is offered a record, it keeps over a run under either policy. -/
theorem forall_mem_after {P : Accumulator → Prop}
    (hoffer : ∀ r view a, P a → P (offer r view a).1) (hnew : ∀ a ∈ e.metrics, P a)
    (rs : List Record) : ∀ a ∈ (e.after rs).metrics, P a := by
  induction rs using List.reverseRecOn with
  | nil => exact hnew
  | append_singleton rs r ih =>
    rw [after_snoc]
    by_cases h : classify r = .fed
    · rw [process_of_fed h]
      show ∀ a ∈ ((e.after rs).pass r).metrics, P a
      rw [pass, feedFrom_eq_sweep]
      exact forall_mem_sweep (hoffer r) ih
    · rw [(process_of_not_fed h).2.1]
      exact ih

end Engine
end BenchMetrics
