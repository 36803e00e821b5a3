import BenchMetrics.Proofs.Order.Cycle
import BenchMetrics.Proofs.Order.Placement
import BenchMetrics.Proofs.Order.Requirement

/-! The evaluation order of a selection: which error a selection is refused with, and that an
order holds what the selection needs, once, everything after what it requires. -/
namespace BenchMetrics.EvaluationOrder
open Relation

/-- Something that the selection needs leads back to itself. -/
def Cyclic (c : Catalog) (selection : List Tag) : Prop :=
  ∃ t, Reachable c selection t ∧ TransGen (Requires c) t t

/-- An order of the metrics that a selection needs. -/
structure Arranged (c : Catalog) (selection : List Tag) (order : List Descriptor) : Prop
    extends Collected c selection order where
  requiredFirst : RequiredFirst order

theorem Collected.of_perm {c : Catalog} {selection : List Tag} {nodes order : List Descriptor}
    (h : Collected c selection nodes) (hp : order.Perm nodes) : Collected c selection order where
  distinct := (hp.map _).nodup_iff.mpr h.distinct
  registered d hd := h.registered d (hp.subset hd)
  mem_iff t := ((hp.map _).mem_iff).trans (h.mem_iff t)

/-- Along requirements the place in the order falls. -/
theorem Arranged.idxOf_lt {c : Catalog} {selection : List Tag} {order : List Descriptor}
    (h : Arranged c selection order) {a b : Tag} (ha : Reachable c selection a)
    (hab : TransGen (Requires c) a b) :
    Reachable c selection b ∧ (tagsOf order).idxOf b < (tagsOf order).idxOf a := by
  have hone : ∀ {a b : Tag}, Reachable c selection a → Requires c a b →
      (tagsOf order).idxOf b < (tagsOf order).idxOf a := by
    intro a b ha hab
    obtain ⟨d, hd, rfl⟩ := List.mem_map.mp ((h.mem_iff a).mpr ha)
    have hb := (requires_of_registered (h.registered d hd)).mp hab
    exact h.requiredFirst.idxOf_lt h.distinct hd hb
  induction hab with
  | single hab => exact ⟨ha.step hab, hone ha hab⟩
  | tail _ hbc ih => exact ⟨ih.1.step hbc, (hone ih.1 hbc).trans ih.2⟩

theorem Arranged.acyclic {c : Catalog} {selection : List Tag} {order : List Descriptor}
    (h : Arranged c selection order) : ¬ Cyclic c selection := by
  intro hcyclic
  obtain ⟨t, ht, htt⟩ := hcyclic
  exact Nat.lt_irrefl _ (h.idxOf_lt ht htt).2

/-- What is blocked when nothing is ready requires something else that is blocked. -/
theorem blocked_waits {c : Catalog} {selection : List Tag} {nodes : List Descriptor}
    {p : Placing} (hc : Collected c selection nodes) (hs : p.Sound nodes) (hr : p.ready = [])
    {d : Descriptor} (hd : d ∈ p.blocked.map (·.descriptor)) :
    ∃ t ∈ d.required, t ∈ (p.blocked.map (·.descriptor)).map (·.tag) := by
  have hperm : (p.placed ++ p.blocked.map (·.descriptor)).Perm nodes := by
    simpa [hr] using hs.perm
  obtain ⟨b, hb, rfl⟩ := List.mem_map.mp hd
  have hpos : unplaced (tagsOf p.placed) b.descriptor ≠ 0 := by
    have hwaits := hs.positive b hb
    rw [hs.waiting b hb] at hwaits
    omega
  have hex : ∃ t ∈ b.descriptor.required, t ∉ tagsOf p.placed := by
    by_contra hall
    push Not at hall
    exact hpos (unplaced_eq_zero.mpr hall)
  obtain ⟨t, ht, hnot⟩ := hex
  refine ⟨t, ht, ?_⟩
  have hmem := hc.closed (hperm.subset (List.mem_append_right _ hd)) ht
  have hmem' := ((hperm.map (·.tag)).mem_iff).mpr hmem
  rw [List.map_append] at hmem'
  exact (List.mem_append.mp hmem').resolve_left hnot

/-- The metrics that a selection needs are put in order, or the walk finds a cycle among
them. -/
theorem arrange_cases {c : Catalog} {selection : List Tag} {nodes : List Descriptor}
    (hc : Collected c selection nodes) :
    (∃ order, arrange nodes = .ok order ∧ Arranged c selection order) ∨
      ∃ path, arrange nodes = .error (.dependencyCycle path) ∧ IsCycle (Requires c) path ∧
        ∀ t ∈ path, Reachable c selection t := by
  have hs := (Placing.sound_start nodes).run hc.distinct nodes.length
  have hr := Placing.run_start_ready hc.distinct
  simp only [arrange]
  generalize (Placing.start nodes).run nodes.length = p at hs hr ⊢
  have hperm : (p.placed ++ p.blocked.map (·.descriptor)).Perm nodes := by
    simpa [hr] using hs.perm
  by_cases hb : p.blocked = []
  · -- nothing is left to be placed
    left
    rw [hb, List.map_nil, List.append_nil] at hperm
    exact ⟨p.placed, by simp [hb], hc.of_perm hperm, hs.ordered⟩
  · -- every blocked metric requires a blocked one, and the walk through them is closed
    right
    have hne : p.blocked.map (·.descriptor) ≠ [] := by simpa using hb
    obtain ⟨hcycle, hsub⟩ :=
      cycle_isCycle hne fun d hd => blocked_waits hc hs hr hd
    have hin : ∀ d ∈ p.blocked.map (·.descriptor), d ∈ nodes :=
      fun d hd => hperm.subset (List.mem_append_right _ hd)
    refine ⟨_, by simp [hb], ⟨hcycle.closed, hcycle.linked.imp ?_⟩, ?_⟩
    · intro a b hwaits
      obtain ⟨d, hd, rfl, hreq, _⟩ := hwaits
      exact (requires_of_registered (hc.registered d (hin d hd))).mpr hreq
    · intro t ht
      obtain ⟨d, hd, rfl⟩ := List.mem_map.mp (hsub ht)
      exact (hc.mem_iff _).mp (List.mem_map_of_mem (hin d hd))

/-- The four ways in which a selection is resolved. -/
theorem resolve_cases (c : Catalog) (selection : List Tag) :
    (∃ t, selection.find? (fun t => (c.get? t).isNone) = some t ∧
      resolve c selection = .error (.unknownMetric t.text)) ∨
    ((∀ t ∈ selection, (c.get? t).isSome) ∧ ∃ m t, Reachable c selection m ∧ Requires c m t ∧
      c.get? t = none ∧ resolve c selection = .error (.unknownDependency m t)) ∨
    ((∀ t, Reachable c selection t → (c.get? t).isSome) ∧ ∃ path,
      resolve c selection = .error (.dependencyCycle path) ∧ IsCycle (Requires c) path ∧
        ∀ t ∈ path, Reachable c selection t) ∨
    ((∀ t, Reachable c selection t → (c.get? t).isSome) ∧ ∃ order,
      resolve c selection = .ok order ∧ Arranged c selection order) := by
  cases hcol : collect c selection with
  | error e =>
    have hres : resolve c selection = .error e := by simp only [resolve, hcol, bind, Except.bind]
    rcases collect_error hcol with ⟨t, ht, rfl⟩ | ⟨hk, m, t, hm, hr, hn, rfl⟩
    · exact Or.inl ⟨t, ht, hres⟩
    · exact Or.inr (Or.inl ⟨hk, m, t, hm, hr, hn, hres⟩)
  | ok nodes =>
    have hres : resolve c selection = arrange nodes := by
      simp only [resolve, hcol, bind, Except.bind]
    have hc := collect_ok hcol
    rw [hres]
    rcases arrange_cases hc with ⟨order, ho, ha⟩ | ⟨path, hp, hcyc⟩
    · exact Or.inr (Or.inr (Or.inr ⟨fun t => hc.known, order, ho, ha⟩))
    · exact Or.inr (Or.inr (Or.inl ⟨fun t => hc.known, path, hp, hcyc⟩))

theorem arranged_of_resolve {c : Catalog} {selection : List Tag} {order : List Descriptor}
    (h : resolve c selection = .ok order) : Arranged c selection order := by
  rcases resolve_cases c selection with ⟨_, _, hr⟩ | ⟨_, _, _, _, _, _, hr⟩ |
    ⟨_, _, hr, _⟩ | ⟨_, o, hr, ho⟩
  · rw [h] at hr; cases hr
  · rw [h] at hr; cases hr
  · rw [h] at hr; cases hr
  · rw [h] at hr; cases hr; exact ho

/-- Resolving a selection, case by case. A selected tag that is in no catalog is reported first,
then a requirement that is in none, then a cycle; without any of them there is an order, and it
holds what the selection needs, each once, after all that it requires. On the way no release
takes more entries from a blocked metric than it waits for, and nothing else is released. -/
theorem resolve_outcome (c : Catalog) (selection : List Tag) :
    (∀ t, selection.find? (fun t => (c.get? t).isNone) = some t →
      resolve c selection = .error (.unknownMetric t.text)) ∧
    ((∀ t ∈ selection, (c.get? t).isSome) →
      (∃ m t, Reachable c selection m ∧ Requires c m t ∧ c.get? t = none) →
      ∃ m t, Reachable c selection m ∧ Requires c m t ∧ c.get? t = none ∧
        resolve c selection = .error (.unknownDependency m t)) ∧
    ((∀ t, Reachable c selection t → (c.get? t).isSome) →
      ((∃ path, resolve c selection = .error (.dependencyCycle path)) ↔ Cyclic c selection) ∧
      ((∃ order, resolve c selection = .ok order) ↔ ¬ Cyclic c selection)) ∧
    (∀ order, resolve c selection = .ok order →
      (∀ d ∈ order, Registered c d) ∧ (∀ t, t ∈ tagsOf order ↔ Reachable c selection t) ∧
      (tagsOf order).Nodup ∧ RequiredFirst order) ∧
    ∀ nodes, collect c selection = .ok nodes → ∀ n d rest,
      ((Placing.start nodes).run n).ready = d :: rest →
      (∀ b ∈ ((Placing.start nodes).run n).blocked,
        b.descriptor.required.count d.tag ≤ b.waiting) ∧
      ∀ x ∈ ((Placing.start nodes).run n).placed ++ ((Placing.start nodes).run n).ready,
        d.tag ∉ x.required := by
  refine ⟨?_, ?_, ?_, ?_, ?_⟩
  · intro t ht
    have hmem := List.mem_of_find?_eq_some ht
    have hnone : c.get? t = none := by simpa using List.find?_some ht
    rcases resolve_cases c selection with ⟨s, hs, hr⟩ | ⟨hk, _⟩ | ⟨hk, _⟩ | ⟨hk, _⟩
    · rw [ht, Option.some.injEq] at hs
      rw [hr, hs]
    · simpa [hnone] using hk t hmem
    · simpa [hnone] using hk t ⟨t, hmem, .refl⟩
    · simpa [hnone] using hk t ⟨t, hmem, .refl⟩
  · intro hsel hmissing
    obtain ⟨m, t, hm, hreq, hnone⟩ := hmissing
    rcases resolve_cases c selection with ⟨s, hs, _⟩ | ⟨_, hr⟩ | ⟨hk, _⟩ | ⟨hk, _⟩
    · have hsnone : c.get? s = none := by simpa using List.find?_some hs
      simpa [hsnone] using hsel s (List.mem_of_find?_eq_some hs)
    · exact hr
    · simpa [hnone] using hk t (hm.step hreq)
    · simpa [hnone] using hk t (hm.step hreq)
  · intro hk
    rcases resolve_cases c selection with ⟨s, hs, _⟩ | ⟨_, m, t, hm, hreq, hnone, _⟩ |
      ⟨_, path, hr, hcycle, hreach⟩ | ⟨_, order, hr, ha⟩
    · have hsnone : c.get? s = none := by simpa using List.find?_some hs
      simpa [hsnone] using hk s ⟨s, List.mem_of_find?_eq_some hs, .refl⟩
    · simpa [hnone] using hk t (hm.step hreq)
    · obtain ⟨t, ht, htt⟩ := hcycle.transGen
      have hcyclic : Cyclic c selection := ⟨t, hreach t ht, htt⟩
      simp [hr, hcyclic]
    · simp [hr, ha.acyclic]
  · intro order ho
    have ha := arranged_of_resolve ho
    exact ⟨ha.registered, ha.mem_iff, ha.distinct, ha.requiredFirst⟩
  · intro nodes hcol n d rest hr
    have hc := collect_ok hcol
    have hs := (Placing.sound_start nodes).run hc.distinct n
    exact ⟨fun b hb => hs.count_le_waiting hc.distinct hr hb,
      fun x hx => hs.not_required hc.distinct hr hx⟩

end BenchMetrics.EvaluationOrder
