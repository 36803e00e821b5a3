import BenchMetrics.Proofs.Run.Sweep
import BenchMetrics.Proofs.Tally.Keyed

/-! Metrics that read no more than they need. When each metric of a sweep finds what it needs in
front of it, its part is the one that the view at the end of the sweep would give it; and two
sweeps that have some metrics in common, with all that these need, make the same of them, whatever
else they go over and in whatever order. -/
namespace BenchMetrics
open Accumulator

namespace View

/-- Views that show the same under some tags. -/
def AgreeOn (S : Tag → Prop) (v w : View) : Prop := ∀ t, S t → v.find? t = w.find? t

variable {S : Tag → Prop} {v w : View} {owner t : Tag}

theorem AgreeOn.demand {α : Type} (h : AgreeOn S v w) (ht : S t) (read : Exposed → Option α) :
    v.demand owner t read = w.demand owner t read := by
  rw [View.demand, View.demand, h t ht]

theorem AgreeOn.series (h : AgreeOn S v w) (ht : S t) : v.series owner t = w.series owner t :=
  h.demand ht _

/-- What is shown later under a tag that is there already is not found. -/
theorem find?_append_of_mem (ht : t ∈ v.map (·.tag)) (w : View) :
    View.find? (v ++ w) t = View.find? v t := by
  obtain ⟨x, hx, rfl⟩ := List.mem_map.mp ht
  have hfound : (View.find? v x.tag).isSome := by
    apply List.find?_isSome.mpr
    exact ⟨x, hx, by simp⟩
  rw [View.find?, List.find?_append]
  exact Option.or_of_isSome hfound

end View

/-- A cell that looks at a view under some tags only. -/
def Cell.ReadsOnly (S : Tag → Prop) : Cell → Prop
  | .derived formula _ => ∀ v w, View.AgreeOn S v w → formula v = formula w
  | .rate source _ _ _ => S source
  | _ => True

namespace Cell

variable {S : Tag → Prop} {c : Cell}

theorem readsOnly_emptied : c.emptied.ReadsOnly S ↔ c.ReadsOnly S := by
  cases c <;> rfl

theorem takesRecords_emptied : c.emptied.takesRecords = c.takesRecords := by
  cases c <;> rfl

theorem ReadsOnly.mono {S' : Tag → Prop} (h : c.ReadsOnly S) (hS : ∀ t, S t → S' t) :
    c.ReadsOnly S' := by
  cases c with
  | derived formula current =>
    intro v w hvw
    exact h v w fun t ht => hvw t (hS t ht)
  | rate source label cursor slots => exact hS source h
  | series | fold | timestamp => trivial

theorem ReadsOnly.update (h : c.ReadsOnly S) {v w : View} (hvw : View.AgreeOn S v w)
    (owner : Tag) (record : Option Record) :
    c.update owner record v = c.update owner record w := by
  cases c with
  | series | fold | timestamp => cases record <;> rfl
  | derived formula current =>
    have hsame : formula v = formula w := h v w hvw
    cases record with
    | none => simp only [Cell.update, hsame]
    | some r => rfl
  | rate source label cursor slots =>
    have hsame : v.series owner source = w.series owner source := hvw.series h
    cases record with
    | none => rfl
    | some r => simp only [Cell.update, hsame]

end Cell

/-- A part that looks at a view only where the cell of its metric does. -/
def Part.Confined (part : Part) : Prop :=
  ∀ (S : Tag → Prop) (v w : View) (a : Accumulator), a.cell.ReadsOnly S → View.AgreeOn S v w →
    part v a = part w a

namespace Accumulator

theorem update_congr {S : Tag → Prop} {a : Accumulator} (h : a.cell.ReadsOnly S) {v w : View}
    (hvw : View.AgreeOn S v w) (record : Option Record) : a.update record v = a.update record w := by
  rw [update_eq, update_eq, h.update hvw]

theorem conclude_confined : conclude.Confined := by
  intro S v w a h hvw
  rw [conclude, conclude, update_congr h hvw]

end Accumulator

/-- All that a metric needs is among `seen` or in front of it. -/
def Ahead (needs : Tag → Tag → Prop) (seen : List Tag) (ms : List Accumulator) : Prop :=
  ∀ front a rest, ms = front ++ a :: rest → ∀ t, needs a.tag t → t ∈ seen ++ front.map (·.tag)

theorem Ahead.head {needs : Tag → Tag → Prop} {seen : List Tag} {a : Accumulator}
    {ms : List Accumulator} (h : Ahead needs seen (a :: ms)) {t : Tag} (ht : needs a.tag t) :
    t ∈ seen := by
  simpa using h [] a ms rfl t ht

theorem Ahead.tail {needs : Tag → Tag → Prop} {seen : List Tag} {a : Accumulator}
    {ms : List Accumulator} (h : Ahead needs seen (a :: ms)) : Ahead needs (seen ++ [a.tag]) ms := by
  intro front b rest hms t ht
  have hmem := h (a :: front) b rest (by rw [hms]; rfl) t ht
  rw [List.map_cons] at hmem
  simpa using hmem

/-- Metrics under different tags, each behind those that it needs, and reading no others. -/
structure Wired (needs : Tag → Tag → Prop) (ms : List Accumulator) : Prop where
  distinct : (ms.map (·.tag)).Nodup
  ahead : Ahead needs [] ms
  confined : ∀ a ∈ ms, a.cell.ReadsOnly (needs a.tag)
  takes : ∀ a ∈ ms, a.descriptor.stage.takesRecords → a.cell.takesRecords

/-- It does not matter what the metrics hold. -/
theorem Wired.of_emptied {needs : Tag → Tag → Prop} {ms ns : List Accumulator}
    (h : Wired needs ms) (hms : ns.map emptied = ms.map emptied) : Wired needs ns := by
  have htags := map_tag_of_emptied hms
  refine ⟨?_, ?_, ?_, ?_⟩
  · rw [htags]
    exact h.distinct
  · intro front b rest hns t ht
    -- the same place among the other metrics
    rw [hns, List.map_append, List.map_cons] at hms
    obtain ⟨front', rest', hms', hfront, hrest⟩ := List.map_eq_append_iff.mp hms.symm
    obtain ⟨a, rest'', rfl, hab, _⟩ := List.map_eq_cons_iff.mp hrest
    have htag : a.tag = b.tag := tag_of_emptied hab
    rw [← map_tag_of_emptied hfront]
    exact h.ahead front' a rest'' hms' t (htag ▸ ht)
  · intro b hb
    obtain ⟨a, ha, hab⟩ := exists_of_map_emptied hms hb
    rw [← Cell.readsOnly_emptied, ← cell_of_emptied hab, Cell.readsOnly_emptied,
      ← tag_of_emptied hab]
    exact h.confined a ha
  · intro b hb hs
    obtain ⟨a, ha, hab⟩ := exists_of_map_emptied hms hb
    rw [← Cell.takesRecords_emptied, ← cell_of_emptied hab, Cell.takesRecords_emptied]
    exact h.takes a ha (descriptor_of_emptied hab ▸ hs)

namespace Engine

variable {part : Part} {needs : Tag → Tag → Prop} {ms ns : List Accumulator}

/-- A sweep that gets through gives each metric the part that the view at its end would give. -/
theorem sweep_settles (hkeeps : part.Keeps) (hconfined : part.Confined) {view whole : View}
    (hahead : Ahead needs (view.map (·.tag)) ms) (hreads : ∀ a ∈ ms, a.cell.ReadsOnly (needs a.tag))
    (hdone : (sweep false part view ms).stopped = none)
    (hwhole : whole = view ++ (sweep false part view ms).metrics.map exposed) :
    (sweep false part view ms).metrics = ms.map (fun a => (part whole a).1) ∧
      (sweep false part view ms).rejected = ms.flatMap fun a => noted a (part whole a).2 := by
  induction ms generalizing view with
  | nil => exact ⟨rfl, rfl⟩
  | cons a ms ih =>
    by_cases hh : halts false (part view a).2
    · -- the sweep would be stopped here
      rw [sweep, if_pos hh] at hdone
      rw [show (part view a).2 = none from hdone] at hh
      cases hh
    · rw [sweep, if_neg hh] at hdone hwhole ⊢
      -- all that the metric needs is in the view already, and stays as it is
      have hagree : View.AgreeOn (needs a.tag) whole view := by
        intro t ht
        rw [hwhole]
        exact View.find?_append_of_mem (hahead.head ht) _
      have hpart : part whole a = part view a :=
        hconfined _ _ _ a (hreads a (.head _)) hagree
      have htag : (part view a).1.tag = a.tag := tag_of_emptied (hkeeps view a)
      have hahead' : Ahead needs ((view ++ [(part view a).1.exposed]).map (·.tag)) ms := by
        rw [List.map_append]
        show Ahead needs (view.map (·.tag) ++ [(part view a).1.tag]) ms
        rw [htag]
        exact hahead.tail
      have hwhole' : whole = (view ++ [(part view a).1.exposed]) ++
          (sweep false part (view ++ [(part view a).1.exposed]) ms).metrics.map exposed := by
        rw [hwhole]
        simp
      obtain ⟨hmetrics, hrejected⟩ :=
        ih hahead' (fun b hb => hreads b (.tail _ hb)) hdone hwhole'
      dsimp only
      rw [List.map_cons, List.flatMap_cons, hpart, hmetrics, hrejected]
      exact ⟨rfl, rfl⟩

/-- A view that shows what the parts make of metrics when they are given that view. -/
def Settled (part : Part) (ms : List Accumulator) (whole : View) : Prop :=
  whole = (ms.map fun a => (part whole a).1).map exposed

theorem Settled.find? {whole : View} (h : Settled part ms whole) (hkeeps : part.Keeps)
    (hn : (ms.map (·.tag)).Nodup) {a : Accumulator} (ha : a ∈ ms) :
    whole.find? a.tag = some (part whole a).1.exposed := by
  have htag : ∀ b, (part whole b).1.tag = b.tag := fun b => tag_of_emptied (hkeeps whole b)
  -- the metrics stand in the view under their own tags
  have hmem : (part whole a).1.exposed ∈ (ms.map fun b => (part whole b).1).map exposed :=
    List.mem_map_of_mem (List.mem_map_of_mem (f := fun b => (part whole b).1) ha)
  have hkeys : ((ms.map fun b => (part whole b).1).map exposed).map (·.tag) = ms.map (·.tag) := by
    rw [List.map_map, List.map_map]
    exact List.map_congr_left fun b _ => htag b
  rw [← h] at hmem hkeys
  have hdistinct : (whole.map (·.tag)).Nodup := by
    rw [hkeys]
    exact hn
  have hfound := find?_of_distinct hdistinct hmem
  have hown : (part whole a).1.exposed.tag = a.tag := htag a
  rw [hown] at hfound
  exact hfound

/-- What is noted under the tag of a metric is noted of that metric. -/
theorem count_noted (hn : (ms.map (·.tag)).Nodup) (met : Accumulator → Option MetricError)
    {a : Accumulator} (ha : a ∈ ms) :
    (ms.flatMap fun b => noted b (met b)).count a.tag = (noted a (met a)).count a.tag := by
  have hother : ∀ b : Accumulator, b.tag ≠ a.tag → (noted b (met b)).count a.tag = 0 := by
    intro b hb
    rw [noted]
    split
    · simp [hb]
    · rfl
  induction ms with
  | nil => cases ha
  | cons b ms ih =>
    rw [List.map_cons, List.nodup_cons] at hn
    rw [List.flatMap_cons, List.count_append]
    rcases List.mem_cons.mp ha with rfl | ha
    · -- none of the others has this tag
      have hrest : (ms.flatMap fun b => noted b (met b)).count a.tag = 0 := by
        apply List.count_eq_zero_of_not_mem
        intro hmem
        obtain ⟨b, hb, hab⟩ := List.mem_flatMap.mp hmem
        have hne : b.tag ≠ a.tag := fun heq => hn.1 (heq ▸ List.mem_map_of_mem hb)
        exact List.count_eq_zero.mp (hother b hne) hab
      rw [hrest, Nat.add_zero]
    · have hne : b.tag ≠ a.tag := fun heq => hn.1 (heq ▸ List.mem_map_of_mem ha)
      rw [hother b hne, Nat.zero_add, ih hn.2 ha]

section
variable {T : Tag → Prop} {whole whole' : View}

end
end Engine
end BenchMetrics
