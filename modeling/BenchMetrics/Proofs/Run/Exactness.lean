import BenchMetrics.Proofs.Measure.Careful
import BenchMetrics.Proofs.Run.Outcome

/-! The arithmetic of a run. Of the standard metrics none computes a number that leaves its 64
bits or falls below zero where it must not: not from any record, whether or not it is usable, and
not from what has been gathered over any records, since only times that can be measured from are
gathered. -/
namespace BenchMetrics
open Accumulator EvaluationOrder BenchMetrics.Measure

namespace Measure

variable {r : Record} {ns : Int64}

theorem inRange_of_requestStart (h : requestStart r = .ok ns) : inOpenRange ns := by
  obtain ⟨_, rfl, hrange⟩ := requestStart_eq_ok_iff.mp h
  exact hrange

theorem inRange_of_lastResponse (h : lastResponse r = .ok ns) : inOpenRange ns := by
  obtain ⟨harrived, rfl⟩ := lastResponse_eq_ok_iff.mp h
  exact harrived.inRange _ (List.mem_of_getElem? (getElem?_last harrived.length_pos))

end Measure

namespace Cell

/-- A cell that gathers no timestamps but ones that can be measured from. -/
def Sound : Cell → Prop
  | .timestamp compute combine current =>
    (∀ r ns, compute r = .ok ns → inOpenRange ns) ∧
    (∀ a b, inOpenRange a → inOpenRange b → inOpenRange (combine a b)) ∧
    ∀ ns, current = some ns → inOpenRange ns
  | _ => True

variable {c : Cell}

theorem Sound.timestamp? (h : c.Sound) {ns : Int64} (hns : c.timestamp? = some ns) :
    inOpenRange ns := by
  cases c with
  | timestamp compute combine current => exact h.2.2 ns hns
  | series | fold | derived | rate => cases hns

theorem Sound.skip (h : c.Sound) : c.skip.Sound := by
  cases c with
  | timestamp compute combine current => exact h
  | series | fold | derived | rate => trivial

/-- Whatever else a cell gathers, it is sound. -/
theorem sound_of_emptied {d : Cell} (h : c.emptied = d.emptied)
    (hd : ∀ compute combine current, d ≠ .timestamp compute combine current) : c.Sound := by
  cases c with
  | timestamp compute combine current =>
    cases d with
    | timestamp compute' combine' current' => exact absurd rfl (hd compute' combine' current')
    | series | fold | derived | rate => cases h
  | series | fold | derived | rate => trivial

theorem Sound.update (h : c.Sound) (owner : Tag) (record : Option Record) (view : View) :
    (c.update owner record view).1.Sound := by
  have hkept := c.emptied_update owner record view
  cases c with
  | timestamp compute combine current =>
    obtain ⟨hcompute, hcombine, hcurrent⟩ := h
    cases record with
    | none => exact ⟨hcompute, hcombine, hcurrent⟩
    | some r =>
      cases hr : compute r with
      | error fault =>
        simp only [Cell.update, hr]
        exact ⟨hcompute, hcombine, hcurrent⟩
      | ok new =>
        have hnew := hcompute r new hr
        simp only [Cell.update, hr]
        refine ⟨hcompute, hcombine, ?_⟩
        -- the first time is taken as it is, and any other is combined with those before
        rintro ns ⟨⟩
        cases current with
        | none => exact hnew
        | some old => exact hcombine old new (hcurrent old rfl) hnew
  | series | fold | derived | rate => exact sound_of_emptied hkept fun _ _ _ heq => by cases heq

end Cell

namespace Accumulator

variable {a : Accumulator} {view : View}

theorem sound_offer (r : Record) (view : View) (a : Accumulator) (h : a.cell.Sound) :
    (offer r view a).1.cell.Sound := by
  have hupdate := h.update a.tag (some r) view
  unfold offer
  split
  · rw [update_eq]
    rcases hu : a.cell.update a.tag (some r) view with ⟨c, err | _⟩
    · rw [hu] at hupdate
      dsimp only
      split
      · exact hupdate
      · exact hupdate.skip
    · rw [hu] at hupdate
      exact hupdate
  · exact h

theorem sound_conclude (view : View) (a : Accumulator) (h : a.cell.Sound) :
    (conclude view a).1.cell.Sound := by
  have hupdate := h.update a.tag none view
  unfold conclude
  split
  · rw [update_eq]
    rcases hu : a.cell.update a.tag none view with ⟨c, err | _⟩ <;> rw [hu] at hupdate <;>
      exact hupdate
  · exact h

theorem sound_exposed {ms : List Accumulator} (h : ∀ a ∈ ms, a.cell.Sound) :
    Careful.Sound (ms.map exposed) := by
  intro x hx ns hns
  obtain ⟨a, ha, rfl⟩ := List.mem_map.mp hx
  exact (h a ha).timestamp? hns

end Accumulator

namespace Standard

variable {selection : List Tag} {settings : Settings} {e : Engine}

theorem sound_fresh : ∀ d ∈ catalog.definitions, d.fresh.cell.Sound := by
  have hmin : ∀ a b : Int64, inOpenRange a → inOpenRange b → inOpenRange (min a b) := by
    intro a b ha hb
    show inOpenRange (if a ≤ b then a else b)
    split
    · exact ha
    · exact hb
  have hmax : ∀ a b : Int64, inOpenRange a → inOpenRange b → inOpenRange (max a b) := by
    intro a b ha hb
    show inOpenRange (if a ≤ b then b else a)
    split
    · exact hb
    · exact ha
  have hstart : Cell.Sound (.timestamp Measure.requestStart min none) :=
    ⟨fun _ _ => inRange_of_requestStart, hmin, fun _ hns => by cases hns⟩
  have hlast : Cell.Sound (.timestamp Measure.lastResponse max none) :=
    ⟨fun _ _ => inRange_of_lastResponse, hmax, fun _ hns => by cases hns⟩
  intro d hd
  rcases cell_cases hd with ⟨_, h⟩ | h | h | h | ⟨_, h⟩ | ⟨_, _, h⟩ <;> rw [h]
  · trivial
  · trivial
  · exact hstart
  · exact hlast
  · trivial
  · trivial

/-- No run gathers a time that cannot be measured from. -/
theorem sound_after (he : Engine.withSelection catalog selection settings = .ok e)
    (rs : List Record) : ∀ a ∈ (e.after rs).metrics, a.cell.Sound := by
  apply Engine.forall_mem_after sound_offer
  intro a ha
  have hmem := (mem_of_get? (get?_tag he ha)).1
  exact sound_fresh _ hmem

theorem inRange_timestampOf (he : Engine.withSelection catalog selection settings = .ok e)
    {rs : List Record} {t : Tag} {ns : Int64} (h : (e.after rs).timestampOf t = some ns) :
    inOpenRange ns := by
  rw [Engine.timestampOf, Option.bind_eq_some_iff] at h
  obtain ⟨x, hx, hns⟩ := h
  exact sound_exposed (sound_after he rs) x (List.mem_of_find?_eq_some hx) ns hns

/-- The duration of a run is derived by the formula that it is registered with. -/
theorem duration_cell (he : Engine.withSelection catalog selection settings = .ok e)
    {rs : List Record} {a : Accumulator} (ha : a ∈ (e.after rs).metrics)
    (ht : a.tag = benchmarkDuration) : ∃ current, a.cell = .derived
      (Measure.span benchmarkDuration minRequestTimestamp maxResponseTimestamp) current := by
  have hmem : a.emptied ∈ e.metrics.map emptied := by
    rw [← Engine.map_emptied_after e rs]
    exact List.mem_map_of_mem ha
  have hfresh := emptied_eq_fresh he hmem (by rw [ht]; rfl)
  have hcell : a.cell.emptied = .derived (Measure.span benchmarkDuration minRequestTimestamp
      maxResponseTimestamp) none := congrArg Accumulator.cell hfresh
  cases hc : a.cell with
  | derived formula current =>
    rw [hc, Cell.emptied, Cell.derived.injEq] at hcell
    exact ⟨current, by rw [hcell.1]⟩
  | series | fold | timestamp | rate =>
    rw [hc] at hcell
    cases hcell

/-- The arithmetic of the standard metrics is safe. Measured with care, which breaks off at an index
out of range, at a difference that is negative or leaves its 64 bits and at a divisor below one, no
record gives anything but what is measured without. No more does a run: whatever its records and
its policy, the difference of the two times that it has gathered is exact, and the view in which the
duration is derived gives with care what it gives without. -/
theorem arithmetic_safe :
    (∀ r, (Careful.requestLatency r).run = (Measure.requestLatency r).map some ∧
      (Careful.timeToFirst r).run = (Measure.timeToFirst r).map some ∧
      (Careful.timeToSecond r).run = (Measure.timeToSecond r).map some ∧
      (Careful.interTokenLatency r).run = (Measure.interTokenLatency r).map some) ∧
    ∀ selection settings e, Engine.withSelection catalog selection settings = .ok e → ∀ rs,
      (∀ lo hi, (e.after rs).timestampOf minRequestTimestamp = some lo →
        (e.after rs).timestampOf maxResponseTimestamp = some hi →
        (hi - lo).toInt = hi.toInt - lo.toInt ∧ (lo ≤ hi → 0 ≤ (hi - lo).toInt)) ∧
      ∀ front a rest, (e.after rs).metrics = front ++ a :: rest → a.tag = benchmarkDuration →
        ∃ current, a.cell = .derived
          (Measure.span benchmarkDuration minRequestTimestamp maxResponseTimestamp) current ∧
        let view := (Engine.summarizeFrom [] front).metrics.map exposed
        (Careful.span benchmarkDuration minRequestTimestamp maxResponseTimestamp view).run =
          (Measure.span benchmarkDuration minRequestTimestamp maxResponseTimestamp view).map some := by
  refine ⟨fun r => ⟨Careful.run_requestLatency r, Careful.run_timeToFirst r,
    Careful.run_timeToSecond r, Careful.run_interTokenLatency r⟩, ?_⟩
  intro selection settings e he rs
  refine ⟨?_, ?_⟩
  · intro lo hi hlo hhi
    have hexact := toInt_sub_of_inOpenRange (inRange_timestampOf he hhi) (inRange_timestampOf he hlo)
    refine ⟨hexact, fun hle => ?_⟩
    rw [Int64.le_iff_toInt_le] at hle
    omega
  · intro front a rest hms ht
    have ha : a ∈ (e.after rs).metrics := by
      rw [hms]
      simp
    obtain ⟨current, hcell⟩ := duration_cell he ha ht
    refine ⟨current, hcell, ?_⟩
    -- the formula is shown what stands in front of it, which is sound before and after the pass
    have hfront : ∀ b ∈ front, b.cell.Sound := by
      intro b hb
      apply sound_after he rs
      rw [hms]
      exact List.mem_append_left _ hb
    have hview : Careful.Sound ((Engine.summarizeFrom [] front).metrics.map exposed) := by
      apply sound_exposed
      rw [Engine.summarizeFrom_eq_sweep]
      exact Engine.forall_mem_sweep sound_conclude hfront
    exact Careful.run_span hview _ _ _

/-- A request from the earliest time that can be measured from to the latest, and one that starts
at a time that cannot. -/
def widest : List Record := [
  .answered 1 [2, 9223372036854775806], .answered 9223372036854775807 [50]]

theorem arithmetic_safe_widest :
    (Careful.requestLatency (.answered 1 [2, 9223372036854775806])).run =
      .ok (some (Float.ofInt 9223372036854775805)) ∧
    ∃ e, Engine.withSelection catalog [benchmarkDuration] .default = .ok e ∧ ∃ lo hi,
      (e.after widest).timestampOf minRequestTimestamp = some lo ∧
      (e.after widest).timestampOf maxResponseTimestamp = some hi ∧
      (hi - lo).toInt = hi.toInt - lo.toInt ∧ 0 ≤ (hi - lo).toInt := by
  obtain ⟨hlatency, _⟩ := arithmetic_safe.1 (.answered 1 [2, 9223372036854775806])
  obtain ⟨hspan, _⟩ := arithmetic_safe.2 [benchmarkDuration] .default _ rfl widest
  refine ⟨hlatency.trans rfl, _, rfl, 1, 9223372036854775806, rfl, rfl, ?_⟩
  obtain ⟨hexact, hnonneg⟩ := hspan 1 9223372036854775806 rfl rfl
  exact ⟨hexact, hnonneg (by decide)⟩

end Standard
end BenchMetrics
