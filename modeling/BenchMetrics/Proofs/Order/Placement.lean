import BenchMetrics.Metric.EvaluationOrder
import Mathlib.Data.List.Nodup
import Mathlib.Data.List.Perm.Basic

/-! Placing metrics. A blocked metric waits for exactly the entries of its requirements that are
not placed yet, so no release takes away more than is there, and everything placed stands
after what it requires. -/
namespace BenchMetrics.EvaluationOrder

abbrev tagsOf (ds : List Descriptor) : List Tag := ds.map (·.tag)

/-- Every metric comes after all that it requires. -/
def RequiredFirst (order : List Descriptor) : Prop :=
  ∀ before d after, order = before ++ d :: after → ∀ t ∈ d.required, t ∈ tagsOf before

theorem RequiredFirst.nil : RequiredFirst [] := by
  intro before d after h
  simp at h

theorem RequiredFirst.snoc {order : List Descriptor} (h : RequiredFirst order) {d : Descriptor}
    (hd : ∀ t ∈ d.required, t ∈ tagsOf order) : RequiredFirst (order ++ [d]) := by
  intro before x after hx
  rcases List.eq_nil_or_concat after with rfl | ⟨after', y, rfl⟩
  · -- the metric in question is the new one
    obtain ⟨rfl, hlast⟩ := List.append_inj' hx rfl
    obtain rfl : d = x := by simpa using hlast
    exact hd
  · have hx' : order ++ [d] = (before ++ x :: after') ++ [y] := by simpa using hx
    exact h before x after' (List.append_inj' hx' rfl).1

theorem RequiredFirst.mem {order : List Descriptor} (h : RequiredFirst order) {d : Descriptor}
    (hd : d ∈ order) {t : Tag} (ht : t ∈ d.required) : t ∈ tagsOf order := by
  obtain ⟨before, after, rfl⟩ := List.append_of_mem hd
  simp only [tagsOf, List.map_append, List.mem_append]
  exact Or.inl (h before d after rfl t ht)

/-- A requirement comes earlier, counted from the front. -/
theorem RequiredFirst.idxOf_lt {order : List Descriptor} (h : RequiredFirst order)
    (hn : (tagsOf order).Nodup) {d : Descriptor} (hd : d ∈ order) {t : Tag}
    (ht : t ∈ d.required) : (tagsOf order).idxOf t < (tagsOf order).idxOf d.tag := by
  obtain ⟨before, after, rfl⟩ := List.append_of_mem hd
  have hbefore : t ∈ tagsOf before := h before d after rfl t ht
  simp only [tagsOf, List.map_append, List.map_cons] at hn ⊢
  have hself : d.tag ∉ before.map (·.tag) := by
    intro hmem
    exact (List.nodup_append.mp hn).2.2 _ hmem _ (.head _) rfl
  rw [List.idxOf_append_of_mem hbefore, List.idxOf_append_of_notMem hself]
  exact Nat.lt_of_lt_of_le (List.idxOf_lt_length_of_mem hbefore) (Nat.le_add_right _ _)

/-- How many entries of the requirements of a metric are not among the placed tags. -/
def unplaced (placed : List Tag) (d : Descriptor) : Nat := d.required.countP (· ∉ placed)

/-- Placing one more metric takes away as many entries as name it. -/
theorem unplaced_snoc {placed : List Tag} {t : Tag} (ht : t ∉ placed) (d : Descriptor) :
    unplaced (placed ++ [t]) d + d.required.count t = unplaced placed d := by
  unfold unplaced
  induction d.required with
  | nil => rfl
  | cons s ss ih =>
    rw [List.countP_cons, List.countP_cons, List.count_cons, ← ih]
    by_cases hs : s = t
    · subst hs
      simp [ht]
      omega
    · simp [hs]
      omega

theorem unplaced_eq_zero {placed : List Tag} {d : Descriptor} :
    unplaced placed d = 0 ↔ ∀ t ∈ d.required, t ∈ placed := by
  simp [unplaced, List.countP_eq_zero]

namespace Placing

/-- What holds whenever metrics are being placed. -/
structure Sound (nodes : List Descriptor) (p : Placing) : Prop where
  perm : (p.placed ++ (p.ready ++ p.blocked.map (·.descriptor))).Perm nodes
  waiting : ∀ b ∈ p.blocked, b.waiting = unplaced (tagsOf p.placed) b.descriptor
  positive : ∀ b ∈ p.blocked, 0 < b.waiting
  ready : ∀ d ∈ p.ready, ∀ t ∈ d.required, t ∈ tagsOf p.placed
  ordered : RequiredFirst p.placed

theorem sound_start (nodes : List Descriptor) : Sound nodes (start nodes) := by
  refine ⟨?_, ?_, ?_, ?_, RequiredFirst.nil⟩
  · simp only [start, List.nil_append, List.map_map, Function.comp_def, List.map_id']
    exact List.filter_append_perm (·.required.isEmpty) nodes
  · intro b hb
    obtain ⟨d, _, rfl⟩ := List.mem_map.mp hb
    simp [start, unplaced]
  · intro b hb
    obtain ⟨d, hd, rfl⟩ := List.mem_map.mp hb
    have hne : d.required ≠ [] := by simpa using (List.mem_filter.mp hd).2
    exact List.length_pos_iff.mpr hne
  · intro d hd t ht
    have hnil : d.required = [] := by simpa [start] using (List.mem_filter.mp hd).2
    simp [hnil] at ht

variable {nodes : List Descriptor} {p : Placing}

/-- The first ready metric is not placed yet. -/
theorem Sound.head_not_placed (h : Sound nodes p) (hn : (tagsOf nodes).Nodup) {d : Descriptor}
    {rest : List Descriptor} (hr : p.ready = d :: rest) : d.tag ∉ tagsOf p.placed := by
  have hp : (tagsOf (p.placed ++ (p.ready ++ p.blocked.map (·.descriptor)))).Nodup :=
    (h.perm.map _).nodup_iff.mpr hn
  rw [hr, tagsOf, List.map_append] at hp
  intro hmem
  exact (List.nodup_append.mp hp).2.2 _ hmem _ (by simp) rfl

/-- A release never takes away more entries than a blocked metric waits for. -/
theorem Sound.count_le_waiting (h : Sound nodes p) (hn : (tagsOf nodes).Nodup) {d : Descriptor}
    {rest : List Descriptor} (hr : p.ready = d :: rest) {b : Blocked} (hb : b ∈ p.blocked) :
    b.descriptor.required.count d.tag ≤ b.waiting := by
  have hsplit := unplaced_snoc (h.head_not_placed hn hr) b.descriptor
  rw [h.waiting b hb]
  omega

/-- Only blocked metrics require the first ready one. -/
theorem Sound.not_required (h : Sound nodes p) (hn : (tagsOf nodes).Nodup) {d x : Descriptor}
    {rest : List Descriptor} (hr : p.ready = d :: rest) (hx : x ∈ p.placed ++ p.ready) :
    d.tag ∉ x.required := by
  intro ht
  apply h.head_not_placed hn hr
  rcases List.mem_append.mp hx with hx | hx
  · exact h.ordered.mem hx ht
  · exact h.ready x hx _ ht

theorem Sound.release_waiting (h : Sound nodes p) (hn : (tagsOf nodes).Nodup) {d : Descriptor}
    {rest : List Descriptor} (hr : p.ready = d :: rest) {b : Blocked} (hb : b ∈ p.blocked) :
    (b.release d.tag).waiting = unplaced (tagsOf (p.placed ++ [d])) b.descriptor := by
  have hs := unplaced_snoc (h.head_not_placed hn hr) b.descriptor
  have hw := h.waiting b hb
  simp only [Blocked.release, tagsOf, List.map_append, List.map_cons, List.map_nil] at hs hw ⊢
  omega

theorem map_release (bs : List Blocked) (t : Tag) :
    (bs.map (·.release t)).map (·.descriptor) = bs.map (·.descriptor) := by
  simp [Blocked.release, Function.comp_def]

theorem Sound.step (h : Sound nodes p) (hn : (tagsOf nodes).Nodup) : Sound nodes p.step := by
  unfold Placing.step
  split
  · exact h
  rename_i d rest hr
  have hd : ∀ t ∈ d.required, t ∈ tagsOf p.placed := h.ready d (by simp [hr])
  refine ⟨?_, ?_, ?_, ?_, h.ordered.snoc hd⟩
  · -- the released metrics are dealt out between the ready and the blocked ones
    let released := p.blocked.map (·.release d.tag)
    have hdeal : ((released.filter (·.waiting == 0)).map (·.descriptor) ++
        (released.filter (·.waiting != 0)).map (·.descriptor)).Perm
          (p.blocked.map (·.descriptor)) := by
      rw [← List.map_append, ← map_release p.blocked d.tag]
      exact (List.filter_append_perm (·.waiting == 0) released).map _
    refine List.Perm.trans ?_ h.perm
    simp only [hr, List.append_assoc, List.cons_append]
    exact (((hdeal.append_left rest).cons d).append_left p.placed)
  · intro b hb
    obtain ⟨b', hb', rfl⟩ := List.mem_map.mp (List.mem_filter.mp hb).1
    exact h.release_waiting hn hr hb'
  · intro b hb
    have hwaits := (List.mem_filter.mp hb).2
    rw [bne_iff_ne] at hwaits
    exact Nat.pos_of_ne_zero hwaits
  · intro x hx t ht
    rcases List.mem_append.mp hx with hx | hx
    · have hready : x ∈ p.ready := by
        rw [hr]
        exact .tail _ hx
      have hplaced := h.ready x hready t ht
      rw [tagsOf, List.map_append]
      exact List.mem_append_left _ hplaced
    · -- it was released, so none of its entries is left
      obtain ⟨b, hb, rfl⟩ := List.mem_map.mp hx
      obtain ⟨hb, hz⟩ := List.mem_filter.mp hb
      obtain ⟨b', hb', rfl⟩ := List.mem_map.mp hb
      rw [beq_iff_eq, h.release_waiting hn hr hb'] at hz
      exact unplaced_eq_zero.mp hz t ht

theorem Sound.run (h : Sound nodes p) (hn : (tagsOf nodes).Nodup) (n : Nat) :
    Sound nodes (p.run n) := by
  induction n generalizing p with
  | zero => exact h
  | succ n ih => exact ih (h.step hn)

theorem run_of_ready_nil (h : p.ready = []) (n : Nat) : p.run n = p := by
  induction n with
  | zero => rfl
  | succ n ih =>
    have hs : p.step = p := by simp only [Placing.step, h]
    rw [Placing.run, hs, ih]

/-- Every step places a metric unless none is ready. -/
theorem run_length (p : Placing) (n : Nat) :
    (p.run n).ready = [] ∨ (p.run n).placed.length = p.placed.length + n := by
  induction n generalizing p with
  | zero => exact Or.inr rfl
  | succ n ih =>
    cases hr : p.ready with
    | nil => exact Or.inl (by rw [run_of_ready_nil hr, hr])
    | cons d rest =>
      have hlen : p.step.placed.length = p.placed.length + 1 := by
        simp [Placing.step, hr]
      refine (ih p.step).imp id fun h => ?_
      rw [Placing.run, h, hlen]
      omega

/-- As many steps as there are metrics leave none that is ready. -/
theorem run_start_ready (hn : (tagsOf nodes).Nodup) :
    ((start nodes).run nodes.length).ready = [] := by
  have hs := (sound_start nodes).run hn nodes.length
  rcases run_length (start nodes) nodes.length with h | h
  · exact h
  · have hlen := hs.perm.length_eq
    simp only [List.length_append] at hlen
    have hzero : (start nodes).placed.length = 0 := rfl
    apply List.eq_nil_of_length_eq_zero
    omega

end Placing
end BenchMetrics.EvaluationOrder
