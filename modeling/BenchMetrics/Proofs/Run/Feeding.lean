import BenchMetrics.Proofs.Run.Worth
import BenchMetrics.Run.Engine
import Mathlib.Data.List.Induction

/-! One record through the metrics. Feeding a record to metrics that have been fed others leaves
them as if it had been there from the start, in a slot of its own: an accepted record by the
update, a rejected one by the empty slot that takes its place. -/
namespace BenchMetrics
open Accumulator

namespace Cell

variable {w : Record → Option Float} {c : Cell} {r : Record} {fs : List Record}
  {shown : Shown} {view : View} {owner : Tag}

theorem toOption_eq_some {ε α : Type} {e : Except ε α} {x : α} (h : e.toOption = some x) :
    e = .ok x := by
  cases e with
  | error _ => cases h
  | ok y => exact congrArg Except.ok (Option.some.inj h)

theorem toOption_eq_none {ε α : Type} {e : Except ε α} (h : e.toOption = none) :
    ∃ f, e = .error f := by
  cases e with
  | error f => exact ⟨f, rfl⟩
  | ok _ => cases h

theorem update_accepted (hw : w r = c.worth r shown)
    (hv : ∀ t, view.slotAt t fs.length = (shown.lookup t).join) {x : Float}
    (hx : c.worth r shown = some x) :
    (c.after w fs).update owner (some r) view = (c.after w (fs ++ [r]), .ok ()) := by
  have hwx : w r = some x := hw.trans hx
  cases c with
  | series compute slots =>
    have hc : compute r = .ok x := toOption_eq_some hx
    simp [Cell.after, Cell.update, hc, hwx]
  | fold compute combine current =>
    have hc : compute r = .ok x := toOption_eq_some hx
    have hf : (fs ++ [r]).filterMap w = fs.filterMap w ++ [x] := by simp [hwx]
    simp only [Cell.after, Cell.update, hc, hf, gathered_snoc]
  | timestamp compute combine current =>
    obtain ⟨ns, hns, _⟩ := Option.map_eq_some_iff.mp hx
    have hc : compute r = .ok ns := toOption_eq_some hns
    have hf : (fs ++ [r]).filterMap (fun r => (compute r).toOption) =
        fs.filterMap (fun r => (compute r).toOption) ++ [ns] := by simp [hns]
    simp only [Cell.after, Cell.update, hc, hf, gathered_snoc]
  | derived formula current => cases hx
  | rate source label cursor slots =>
    -- the cursor stands at the slot that the source has for this very record
    rcases view.series_cases owner source with ⟨_, hnone⟩ | ⟨others, hs, hat⟩
    · have hempty : (shown.lookup source).join = none := (hv source).symm.trans (hnone _)
      rw [worth, hempty] at hx
      cases hx
    · have hr : rateAt source label others fs.length = .ok x := by
        rw [rateAt_eq, ← hat, hv]
        exact toOption_eq_some hx
      simp [Cell.after, Cell.update, hs, hr, hwx]

/-- A rejected record is refused without a fatal error, and skipping it leaves an empty slot. -/
theorem update_rejected (hc : c.takesRecords) (hw : w r = c.worth r shown)
    (hv : ∀ t, view.slotAt t fs.length = (shown.lookup t).join)
    (hx : c.worth r shown = none) :
    ∃ b e, (c.after w fs).update owner (some r) view = (b, .error e) ∧ e.isFatal = false ∧
      b.skip = c.after w (fs ++ [r]) := by
  have hwx : w r = none := hw.trans hx
  cases c with
  | series compute slots =>
    obtain ⟨fault, hf⟩ := toOption_eq_none hx
    refine ⟨(series compute slots).after w fs, .rejected owner fault, ?_, rfl, ?_⟩
    · simp only [Cell.after, Cell.update, hf]
    · simp [skip, Cell.after, hwx]
  | fold compute combine current =>
    obtain ⟨fault, hf⟩ := toOption_eq_none hx
    refine ⟨(fold compute combine current).after w fs, .rejected owner fault, ?_, rfl, ?_⟩
    · simp only [Cell.after, Cell.update, hf]
    · simp [skip, Cell.after, hwx]
  | timestamp compute combine current =>
    have hnone : (compute r).toOption = none := Option.map_eq_none_iff.mp hx
    obtain ⟨fault, hf⟩ := toOption_eq_none hnone
    refine ⟨(timestamp compute combine current).after w fs, .rejected owner fault, ?_, rfl, ?_⟩
    · simp only [Cell.after, Cell.update, hf]
    · simp [skip, Cell.after, hnone]
  | derived formula current => cases hc
  | rate source label cursor slots =>
    -- the cursor moves on before anything is looked up, so it stays in step
    let moved : Cell :=
      .rate source label (fs.length + 1) (fs.map fun r => (w r).map Sample.of).toArray
    have hk : moved.skip = (rate source label cursor slots).after w (fs ++ [r]) := by
      simp [moved, skip, Cell.after, hwx]
    rcases view.series_cases owner source with ⟨hs, _⟩ | ⟨others, hs, hat⟩
    · refine ⟨moved, .missingValue owner source, ?_, rfl, hk⟩
      simp only [Cell.after, Cell.update, hs, moved]
    · have hr : ∃ fault, rateAt source label others fs.length = .error fault := by
        rw [rateAt_eq, ← hat, hv]
        exact toOption_eq_none hx
      obtain ⟨fault, hf⟩ := hr
      refine ⟨moved, .rejected owner fault, ?_, rfl, hk⟩
      simp only [Cell.after, Cell.update, hs, hf, moved]

end Cell

namespace Accumulator

/-- A metric that can be offered what its stage promises, and holds nothing yet. -/
structure Proper (a : Accumulator) : Prop where
  isNew : a.cell.IsNew
  takes : a.descriptor.stage.takesRecords → a.cell.takesRecords

theorem update_eq (a : Accumulator) (record : Option Record) (view : View) :
    a.update record view = ({ a with cell := (a.cell.update a.tag record view).1 },
      (a.cell.update a.tag record view).2) := rfl

variable {a : Accumulator} {before : List Accumulator} {r : Record} {fs : List Record}
  {view : View}

theorem update_accepted (hs : a.descriptor.stage.takesRecords)
    (hv : view.Shows fs.length (showAll r before)) {x : Float} (hx : a.worth before r = some x) :
    (a.after before fs).update (some r) view = (a.after before (fs ++ [r]), .ok ()) := by
  have hc : (a.cell.after (a.worth before) fs).update a.tag (some r) view =
      (a.cell.after (a.worth before) (fs ++ [r]), .ok ()) :=
    Cell.update_accepted rfl hv.slotAt_eq hx
  rw [update_eq, after_tag, after_cell hs, hc, after, after, if_pos hs, if_pos hs]

theorem update_rejected (ha : a.Proper) (hs : a.descriptor.stage.takesRecords)
    (hv : view.Shows fs.length (showAll r before)) (hx : a.worth before r = none) :
    ∃ b e, (a.after before fs).update (some r) view = (b, .error e) ∧ e.isFatal = false ∧
      b.skip = a.after before (fs ++ [r]) := by
  obtain ⟨c, e, hu, hf, hk⟩ : ∃ c e,
      (a.cell.after (a.worth before) fs).update a.tag (some r) view = (c, .error e) ∧
        e.isFatal = false ∧ c.skip = a.cell.after (a.worth before) (fs ++ [r]) :=
    Cell.update_rejected (ha.takes hs) rfl hv.slotAt_eq hx
  refine ⟨{ a.after before fs with cell := c }, e, ?_, hf, ?_⟩
  · rw [update_eq, after_tag, after_cell hs, hu]
  · rw [skip, hk, after, after, if_pos hs, if_pos hs]

/-- After one record more, a metric exposes the slot that it shows for that record. -/
theorem exposed_slotAt (ha : a.Proper) :
    (a.after before (fs ++ [r])).exposed.slotAt fs.length = (a.shown r (showAll r before)).2 := by
  rw [slotAt_exposed]
  unfold Accumulator.shown
  by_cases hs : a.descriptor.stage.takesRecords
  · rw [after_cell hs, Cell.slots?_after, if_pos hs, Cell.slot]
    cases a.cell.slots? with
    | none => rfl
    | some slots => simp [Accumulator.worth]
  · rw [Accumulator.after, if_neg hs, if_neg hs]
    rcases Cell.slots?_of_isNew ha.isNew with h | h <;> rw [h] <;> rfl

/-- The metrics after records, those in `before` being evaluated first. -/
def settled (fs : List Record) : List Accumulator → List Accumulator → List Accumulator
  | _, [] => []
  | before, a :: rest => a.after before fs :: settled fs (before ++ [a]) rest

theorem settled_append (fs : List Record) (before ms rest : List Accumulator) :
    settled fs before (ms ++ rest) = settled fs before ms ++ settled fs (before ++ ms) rest := by
  induction ms generalizing before with
  | nil => simp [settled]
  | cons a ms ih =>
    rw [List.cons_append, settled, settled, List.cons_append, ih]
    simp

theorem after_mem_settled (fs : List Record) (before : List Accumulator) (a : Accumulator)
    (rest : List Accumulator) : a.after before fs ∈ settled fs [] (before ++ a :: rest) := by
  rw [settled_append, List.nil_append, settled]
  simp

theorem tags_settled (fs : List Record) (before ms : List Accumulator) :
    (settled fs before ms).map (·.tag) = ms.map (·.tag) := by
  induction ms generalizing before with
  | nil => rfl
  | cons a ms ih => rw [settled, List.map_cons, ih, after_tag, List.map_cons]

theorem mem_settled {fs : List Record} {before ms : List Accumulator} {b : Accumulator}
    (h : b ∈ settled fs before ms) : ∃ a ∈ ms, ∃ front, b = a.after front fs := by
  induction ms generalizing before with
  | nil => cases h
  | cons a ms ih =>
    rcases List.mem_cons.mp h with heq | hmem
    · exact ⟨a, .head _, before, heq⟩
    · obtain ⟨c, hc, front, hb⟩ := ih hmem
      exact ⟨c, .tail _ hc, front, hb⟩

theorem settled_nil {ms : List Accumulator} (h : ∀ a ∈ ms, a.cell.IsNew)
    (before : List Accumulator) : settled [] before ms = ms := by
  induction ms generalizing before with
  | nil => rfl
  | cons a ms ih =>
    rw [settled, after_nil (h a (.head _)), ih fun b hb => h b (.tail _ hb)]

/-- What metrics expose after one record more shows the slots for that record. -/
theorem shows_settled {ms : List Accumulator} (h : ∀ a ∈ ms, a.Proper) (fs : List Record)
    (r : Record) :
    View.Shows ((settled (fs ++ [r]) [] ms).map exposed) fs.length (showAll r ms) := by
  -- from the back: what a metric shows depends on those in front of it
  induction ms using List.reverseRecOn with
  | nil => exact .nil
  | append_singleton ms a ih =>
    rw [settled_append, List.map_append, showAll_snoc]
    have hms : ∀ b ∈ ms, b.Proper := fun b hb => h b (List.mem_append_left _ hb)
    have ha : a.Proper := h a (by simp)
    exact List.rel_append (ih hms)
      (.cons ⟨after_tag a ms (fs ++ [r]), exposed_slotAt ha⟩ .nil)

/-- The tags of the metrics that reject a record. -/
def refusing (r : Record) : List Accumulator → List Accumulator → List Tag
  | _, [] => []
  | before, a :: rest =>
    if a.descriptor.stage.takesRecords ∧ a.worth before r = none then
      a.tag :: refusing r (before ++ [a]) rest
    else refusing r (before ++ [a]) rest

end Accumulator

/-- A pass over metrics that have been fed `fs` leaves them fed one record more. -/
theorem Engine.feedFrom_settled {before rest : List Accumulator}
    (h : ∀ a ∈ before ++ rest, a.Proper) (fs : List Record) (r : Record) :
    feedFrom .skip r ((settled (fs ++ [r]) [] before).map exposed) (settled fs before rest) =
      ⟨settled (fs ++ [r]) before rest, refusing r before rest, none⟩ := by
  induction rest generalizing before with
  | nil => rfl
  | cons a rest ih =>
    have ha : a.Proper := h a (by simp)
    have hshow := shows_settled (fun b hb => h b (List.mem_append_left _ hb)) fs r
    have hone : (settled (fs ++ [r]) before [a]).map exposed =
        [(a.after before (fs ++ [r])).exposed] := rfl
    have hrest : feedFrom .skip r ((settled (fs ++ [r]) [] (before ++ [a])).map exposed)
        (settled fs (before ++ [a]) rest) =
          ⟨settled (fs ++ [r]) (before ++ [a]) rest, refusing r (before ++ [a]) rest, none⟩ :=
      ih (by simpa using h)
    rw [settled_append, List.nil_append, List.map_append, hone] at hrest
    simp only [settled, feedFrom, refusing, after_descriptor]
    by_cases hs : a.descriptor.stage.takesRecords
    · rw [if_pos hs]
      cases hx : a.worth before r with
      | some x =>
        -- accepted: the update is the slot or the summand
        rw [update_accepted hs hshow hx]
        simp [Pass.after, hrest]
      | none =>
        -- rejected: the pass goes on with an empty slot in its place
        obtain ⟨b, e, hu, hf, hk⟩ := update_rejected ha hs hshow hx
        rw [hu]
        simp [Pass.after, hk, hrest, hf, hs, after_tag]
    · have hstay : ∀ gs, a.after before gs = a := fun gs => by rw [Accumulator.after, if_neg hs]
      rw [hstay] at hrest
      simp [Pass.after, hrest, hs, hstay]

theorem Engine.pass_settled {ms : List Accumulator} (h : ∀ a ∈ ms, a.Proper) (fs : List Record)
    (r : Record) : feedFrom .skip r [] (settled fs [] ms) =
      ⟨settled (fs ++ [r]) [] ms, refusing r [] ms, none⟩ := by
  have hview : (settled (fs ++ [r]) [] []).map exposed = [] := rfl
  rw [← hview]
  exact feedFrom_settled h fs r

/-- A pass over metrics is a pass over the first of them, and one over the others that is shown
what the first have become. -/
theorem Engine.feedFrom_append {ms rest : List Accumulator} (h : ∀ a ∈ ms ++ rest, a.Proper)
    (fs : List Record) (r : Record) :
    (feedFrom .skip r [] (settled fs [] (ms ++ rest))).metrics =
      (feedFrom .skip r [] (settled fs [] ms)).metrics ++
        (feedFrom .skip r ((feedFrom .skip r [] (settled fs [] ms)).metrics.map exposed)
          (settled fs ms rest)).metrics := by
  have hms : ∀ a ∈ ms, a.Proper := fun a ha => h a (List.mem_append_left _ ha)
  rw [pass_settled h, pass_settled hms, feedFrom_settled h, settled_append, List.nil_append]

end BenchMetrics
