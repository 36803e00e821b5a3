import BenchMetrics.Proofs.Run.Accounting
import BenchMetrics.Proofs.Run.Sweep
import BenchMetrics.Run.Summary

/-! The two policies side by side. A run that aborts is the run that skips, up to the first record
that a metric rejects; there it ends in the middle of the pass, with the error of that metric. -/
namespace BenchMetrics
open Accumulator

namespace Engine

section
variable {part : Part} {view : View} {ms : List Accumulator}

/-- As long as nothing is noted, a strict sweep is as one that is not. -/
theorem sweep_strict_of_unrejected (h : (sweep false part view ms).rejected = []) :
    sweep true part view ms = sweep false part view ms := by
  induction ms generalizing view with
  | nil => rfl
  | cons a ms ih =>
    rw [sweep] at h
    rw [sweep, sweep]
    cases hm : (part view a).2 with
    | none =>
      rw [hm] at h
      have hrest : (sweep false part (view ++ [(part view a).1.exposed]) ms).rejected = [] := h
      simp [halts, ih hrest]
    | some err =>
      cases hf : err.isFatal with
      -- a fatal error ends both sweeps here, and any other would have been noted
      | true => simp [halts, hf]
      | false =>
        rw [hm] at h
        simp [halts, noted, hf] at h

/-- The first metric that is noted. -/
theorem exists_first_noted (h : (sweep false part view ms).rejected ≠ []) :
    ∃ front a rest done err, ms = front ++ a :: rest ∧
      sweep false part view front = ⟨done, [], none⟩ ∧
      (part (view ++ done.map exposed) a).2 = some err ∧ err.isFatal = false := by
  induction ms generalizing view with
  | nil => exact absurd rfl h
  | cons a ms ih =>
    rw [sweep] at h
    cases hm : (part view a).2 with
    | none =>
      rw [hm] at h
      obtain ⟨front, c, rest, done, err, rfl, hdone, hmet, hf⟩ := ih h
      refine ⟨a :: front, c, rest, (part view a).1 :: done, err, rfl, ?_, ?_, hf⟩
      · rw [sweep, hm, hdone]
        rfl
      · rw [List.map_cons, ← List.singleton_append, ← List.append_assoc]
        exact hmet
    | some err =>
      cases hf : err.isFatal with
      | true =>
        -- the sweep would have ended here with nothing noted
        rw [hm] at h
        simp [halts, noted, hf] at h
      | false => exact ⟨[], a, ms, [], err, rfl, rfl, by simpa using hm, hf⟩

/-- Where something is noted, a strict sweep ends at the first metric that is. Both sweeps are the
same up to there, and the strict one leaves the others alone. -/
theorem sweep_strict_of_rejected (h : (sweep false part view ms).rejected ≠ []) :
    ∃ front a rest done err rest', ms = front ++ a :: rest ∧
      sweep false part view front = ⟨done, [], none⟩ ∧
      (part (view ++ done.map exposed) a).2 = some err ∧ err.isFatal = false ∧
      sweep true part view ms =
        ⟨done ++ (part (view ++ done.map exposed) a).1 :: rest, [a.tag], some err⟩ ∧
      (sweep false part view ms).metrics =
        done ++ (part (view ++ done.map exposed) a).1 :: rest' := by
  obtain ⟨front, a, rest, done, err, rfl, hdone, hmet, hf⟩ := exists_first_noted h
  have hstrict : sweep true part view front = ⟨done, [], none⟩ := by
    rw [sweep_strict_of_unrejected (by rw [hdone]), hdone]
  let b := (part (view ++ done.map exposed) a).1
  refine ⟨front, a, rest, done, err,
    (sweep false part (view ++ done.map exposed ++ [b.exposed]) rest).metrics, rfl, hdone, hmet,
    hf, ?_, ?_⟩
  · rw [sweep_append_of_done hstrict, sweep, hmet]
    simp [halts, noted, hf]
  · rw [sweep_append_of_done hdone, sweep, hmet]
    simp only [halts, Option.any_some, hf, Bool.or_self, Bool.false_eq_true, ↓reduceIte]
    rfl

end

/-- The engine with another policy. -/
def under (e : Engine) (policy : RejectionPolicy) : Engine :=
  { e with settings := { e.settings with policy := policy } }

/-- The policy has no say in how an engine is built. -/
theorem withSelection_under {c : Catalog} {selection : List Tag} {settings : Settings}
    {e : Engine} (h : withSelection c selection settings = .ok e) (policy : RejectionPolicy) :
    withSelection c selection { settings with policy := policy } = .ok (e.under policy) := by
  -- all that the settings decide is which tags are kept
  have hkept : kept c { settings with policy := policy } = kept c settings := rfl
  obtain ⟨harr, hms, he⟩ := withSelection_ok h
  simp only [withSelection] at h ⊢
  rw [hkept]
  split at h
  · cases h
  · rename_i hsome
    rw [if_neg hsome]
    cases hres : EvaluationOrder.resolve c (selection.filter (kept c settings)) with
    | error x => simp [hres, bind, Except.bind] at h
    | ok order =>
      cases hfresh : freshMetrics c order with
      | error x => simp [hres, hfresh, bind, Except.bind] at h
      | ok ms =>
        simp only [hres, hfresh, bind, Except.bind, Except.ok.injEq] at h ⊢
        rw [← h]
        rfl

/-- Nothing has been tallied. -/
def Clean (e : Engine) : Prop := ∀ t, e.rejectionsOf t = 0

variable {e : Engine} {rs : List Record} {r : Record}

/-- A tally is never taken back. -/
theorem Clean.of_process (h : (e.process r).1.Clean) : e.Clean := by
  intro t
  have ht := h t
  by_cases hfed : classify r = .fed
  · rw [rejectionsOf_process_of_fed hfed] at ht
    omega
  · rw [rejectionsOf_process_of_not_fed hfed] at ht
    exact ht

theorem Clean.rejected_eq_nil (h : (e.process r).1.Clean) (hfed : classify r = .fed) :
    (e.pass r).rejected = [] := by
  apply List.eq_nil_iff_forall_not_mem.mpr
  intro t ht
  have hcount := h t
  rw [rejectionsOf_process_of_fed hfed] at hcount
  have hpos := List.count_pos_iff.mpr ht
  omega

theorem Clean.rejected_ne_nil (h : e.Clean) (hn : ¬ (e.process r).1.Clean)
    (hfed : classify r = .fed) : (e.pass r).rejected ≠ [] := by
  intro hnil
  apply hn
  intro t
  rw [rejectionsOf_process_of_fed hfed, hnil, h t]
  rfl

theorem process_under_of_not_fed (h : classify r ≠ .fed) (e : Engine) (policy : RejectionPolicy) :
    (e.under policy).process r = ((e.process r).1.under policy, .ok ()) := by
  rw [process, process]
  cases hc : classify r with
  | failed f => rfl
  | unusable => rfl
  | fed => exact absurd hc h

/-- A call that tallies nothing is the same under both policies. -/
theorem process_under_of_clean (hskip : e.settings.policy = .skip)
    (h : (e.process r).1.Clean) :
    (e.under .abort).process r = ((e.process r).1.under .abort, (e.process r).2) := by
  by_cases hfed : classify r = .fed
  · have hrejected := h.rejected_eq_nil hfed
    have hsame : (e.under .abort).pass r = e.pass r := by
      rw [pass_of_skip hskip] at hrejected ⊢
      rw [pass, feedFrom_eq_sweep]
      exact sweep_strict_of_unrejected hrejected
    rw [process_of_fed hfed, process_of_fed hfed, hsame]
    rfl
  · rw [process_under_of_not_fed hfed, (process_of_not_fed hfed).1]

/-- The records behind others are taken unless one of those was refused. -/
theorem processAll_append (e : Engine) (rs later : List Record) :
    e.processAll (rs ++ later) = match e.processAll rs with
      | (f, .ok ()) => f.processAll later
      | (f, .error err) => (f, .error err) := by
  induction rs generalizing e with
  | nil => rfl
  | cons r rs ih =>
    rw [List.cons_append, processAll, processAll]
    rcases e.process r with ⟨f, err | _⟩
    · rfl
    · exact ih f

theorem processAll_snoc {e f : Engine} (h : e.processAll rs = (f, .ok ())) (r : Record) :
    e.processAll (rs ++ [r]) = f.process r := by
  rw [processAll_append, h]
  dsimp only [processAll]
  rcases f.process r with ⟨g, err | _⟩ <;> rfl

/-- A run that tallies nothing is the same under both policies. -/
theorem processAll_under_of_clean (hskip : e.settings.policy = .skip)
    (hok : ∀ rs r, ((e.after rs).process r).2 = .ok ()) (h : (e.after rs).Clean) :
    (e.under .abort).processAll rs = ((e.after rs).under .abort, .ok ()) := by
  induction rs using List.reverseRecOn with
  | nil => rfl
  | append_singleton rs r ih =>
    rw [after_snoc] at h ⊢
    have hpolicy : (e.after rs).settings.policy = .skip := by rw [settings_after, hskip]
    -- tallies only grow, so the calls before the last one tally nothing either
    rw [processAll_snoc (ih h.of_process), process_under_of_clean hpolicy h, hok]

/-- What starts with a property and ends without it loses it at some element. -/
theorem exists_first_of_not {α : Type} {P : List α → Prop} (hnil : P []) {xs : List α}
    (h : ¬ P xs) : ∃ before x later, xs = before ++ x :: later ∧ P before ∧ ¬ P (before ++ [x]) := by
  induction xs using List.reverseRecOn with
  | nil => exact absurd hnil h
  | append_singleton xs x ih =>
    by_cases hxs : P xs
    · exact ⟨xs, x, [], rfl, hxs, h⟩
    · obtain ⟨before, y, later, rfl, hbefore, hy⟩ := ih hxs
      exact ⟨before, y, later ++ [x], by simp, hbefore, hy⟩

/-- The call in which the first rejection comes. Under both policies the metrics in front of the
one that rejects take the record, and that one an empty slot for it; under the one that aborts the
call then ends with its error, and those behind it are not offered the record. -/
theorem process_under_of_rejection (hskip : e.settings.policy = .skip) (hclean : e.Clean)
    (hn : ¬ (e.process r).1.Clean) : ∃ front a rest done b rest' err,
      e.metrics = front ++ a :: rest ∧
      feedFrom .skip r [] front = ⟨done, [], none⟩ ∧
      a.descriptor.stage.takesRecords ∧
      a.update (some r) (done.map exposed) = (b, .error err) ∧
      (e.process r).1.metrics = done ++ b.skip :: rest' ∧
      ((e.under .abort).process r).2 = .error err ∧
      ((e.under .abort).process r).1.metrics = done ++ b.skip :: rest ∧
      ∀ t, ((e.under .abort).process r).1.rejectionsOf t = if t = a.tag then 1 else 0 := by
  -- a record that is not fed leaves the tallies alone
  have hfed : classify r = .fed := by
    by_contra hfed
    exact hn fun t => by rw [rejectionsOf_process_of_not_fed hfed, hclean t]
  have hrejected := hclean.rejected_ne_nil hn hfed
  rw [pass_of_skip hskip] at hrejected
  obtain ⟨front, a, rest, done, err, rest', hms, hdone, hmet, hf, hstrict, hlenient⟩ :=
    sweep_strict_of_rejected hrejected
  obtain ⟨hs, b, hu, hb⟩ := offer_refused hmet
  rw [hf] at hb
  rw [hb] at hstrict hlenient
  have habort : (e.under .abort).pass r = ⟨done ++ b.skip :: rest, [a.tag], some err⟩ := by
    rw [pass, feedFrom_eq_sweep]
    exact hstrict
  refine ⟨front, a, rest, done, b, rest', err, hms, ?_, hs, hu, ?_, ?_, ?_, ?_⟩
  · rw [feedFrom_eq_sweep]
    exact hdone
  · rw [process_of_fed hfed, pass_of_skip hskip]
    exact hlenient
  · rw [process_of_fed hfed, habort]
    rfl
  · rw [process_of_fed hfed, habort]
  · intro t
    have ht : (e.under .abort).rejectionsOf t = 0 := hclean t
    rw [rejectionsOf_process_of_fed hfed, habort, ht]
    by_cases hta : t = a.tag
    · simp [hta]
    · simp [hta, Ne.symm hta]

end Engine

namespace Standard

variable {selection : List Tag} {settings : Settings} {e : Engine}

/-- Two engines that differ in their policy alone. As long as nothing is tallied, each call is
accepted by both and makes the same of both. The first record that is rejected is refused by the
engine that aborts, with the error of the first metric in the order that rejects it: that metric
alone has a tally, of one, and an empty slot if it has slots; the metrics in front of it are as
the other engine has them, and those behind it as they were. -/
theorem policies_agree (he : Engine.withSelection catalog selection settings = .ok e)
    (hskip : settings.policy = .skip) (rs : List Record) :
    Engine.withSelection catalog selection { settings with policy := .abort } =
      .ok (e.under .abort) ∧
    ((e.after rs).Clean → (e.under .abort).processAll rs = ((e.after rs).under .abort, .ok ()) ∧
      ∀ ending, ((e.after rs).under .abort).finish ending = (e.after rs).finish ending) ∧
    (¬ (e.after rs).Clean → ∃ before r later, rs = before ++ r :: later ∧
      (e.after before).Clean ∧ ¬ (e.after (before ++ [r])).Clean ∧
      (e.under .abort).processAll before = ((e.after before).under .abort, .ok ()) ∧
      ∃ aborted front a rest done b rest' err,
        ((e.after before).under .abort).process r = (aborted, .error err) ∧
        (e.after before).metrics = front ++ a :: rest ∧
        Engine.feedFrom .skip r [] front = ⟨done, [], none⟩ ∧
        a.descriptor.stage.takesRecords ∧
        a.update (some r) (done.map exposed) = (b, .error err) ∧
        (e.after (before ++ [r])).metrics = done ++ b.skip :: rest' ∧
        aborted.metrics = done ++ b.skip :: rest ∧
        b.skip.cell.slots? = a.cell.slots?.map (·.push none) ∧
        (a.cell.slots? = none → b.skip = a) ∧
        ∀ t, aborted.rejectionsOf t = if t = a.tag then 1 else 0) := by
  obtain ⟨hfresh, hset⟩ := Engine.fresh_of_withSelection catalog_proper he
  have hpolicy : e.settings.policy = .skip := by rw [hset, hskip]
  have hok := hfresh.process_ok hpolicy
  refine ⟨?_, ?_, ?_⟩
  · exact Engine.withSelection_under he .abort
  · intro hclean
    exact ⟨Engine.processAll_under_of_clean hpolicy hok hclean, fun _ => rfl⟩
  · intro hn
    have hnew : (e.after []).Clean := by
      intro t
      rw [Engine.rejectionsOf]
      show (e.rejections.get? t.text).getD 0 = 0
      rw [hfresh.rejections]
      rfl
    obtain ⟨before, r, later, hrs, hbefore, hr⟩ :=
      Engine.exists_first_of_not (P := fun rs => (e.after rs).Clean) hnew hn
    refine ⟨before, r, later, hrs, hbefore, hr,
      Engine.processAll_under_of_clean hpolicy hok hbefore, ?_⟩
    have hskip' : (e.after before).settings.policy = .skip := by
      rw [Engine.settings_after, hpolicy]
    rw [Engine.after_snoc] at hr ⊢
    obtain ⟨front, a, rest, done, b, rest', err, hms, hdone, hs, hu, hskipped, hresult, habort,
      htally⟩ := Engine.process_under_of_rejection hskip' hbefore hr
    obtain ⟨hslots, hsame⟩ := skip_of_refused hu
    exact ⟨_, front, a, rest, done, b, rest', err, Prod.ext rfl hresult, hms, hdone, hs, hu,
      hskipped, habort, hslots, hsame, htally⟩

/-- A run whose second record has one response only, and so no time to the second. -/
theorem policies_agree_to_second :
    ∃ e, Engine.withSelection catalog [timeToSecond] .default = .ok e ∧
      ∃ before r later aborted err a,
        [.answered 100 [150, 190], .answered 100 [150]] = before ++ r :: later ∧
        (e.under .abort).processAll before = ((e.after before).under .abort, .ok ()) ∧
        ((e.after before).under .abort).process r = (aborted, .error err) ∧
        a ∈ (e.after before).metrics ∧
        ∀ t, aborted.rejectionsOf t = if t = a.tag then 1 else 0 := by
  refine ⟨_, rfl, ?_⟩
  obtain ⟨_, _, hfirst⟩ := @policies_agree [timeToSecond] .default _ rfl rfl
    [.answered 100 [150, 190], .answered 100 [150]]
  obtain ⟨before, r, later, hrs, _, _, hok, aborted, _, a, _, _, _, _, err, hprocess, hms, _, _, _,
    _, _, _, _, htally⟩ := hfirst fun hclean => absurd (hclean timeToSecond) (by decide)
  exact ⟨before, r, later, aborted, err, a, hrs, hok, hprocess, by rw [hms]; simp, htally⟩

end Standard
end BenchMetrics
