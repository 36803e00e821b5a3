import BenchMetrics.Proofs.Order.Resolution

/-! What a refused selection is told. The reported path is a cycle of requirements that the
selection reaches; the walk that finds it never comes to a dead end, and it needs no more rounds
than it is given. -/
namespace BenchMetrics.EvaluationOrder
open Relation

section
variable {R : Tag → Tag → Prop} {path : List Tag}

theorem IsCycle.two_le_length (h : IsCycle R path) : 2 ≤ path.length := by
  obtain ⟨a, rest, rfl, _⟩ := h.closed
  simp

theorem IsCycle.head?_eq_getLast? (h : IsCycle R path) : path.head? = path.getLast? := by
  obtain ⟨a, rest, rfl, _⟩ := h.closed
  rw [List.getLast?_concat, List.cons_append, List.head?_cons]

theorem IsCycle.dropLast_nodup (h : IsCycle R path) : path.dropLast.Nodup := by
  obtain ⟨a, rest, rfl, hdistinct⟩ := h.closed
  rwa [List.dropLast_concat]

end

/-- The metrics that still wait when no other can be placed. -/
def stalled (nodes : List Descriptor) : List Descriptor :=
  ((Placing.start nodes).run nodes.length).blocked.map (·.descriptor)

/-- Whatever still waits requires something that still waits as well. -/
theorem stalled_waits {c : Catalog} {selection : List Tag} {nodes : List Descriptor}
    (hc : Collected c selection nodes) :
    ∀ d ∈ stalled nodes, ∃ t ∈ d.required, t ∈ (stalled nodes).map (·.tag) := fun _ hd =>
  blocked_waits hc ((Placing.sound_start nodes).run hc.distinct nodes.length)
    (Placing.run_start_ready hc.distinct) hd

theorem arrange_error {nodes : List Descriptor} {e : MetricError} (h : arrange nodes = .error e) :
    stalled nodes ≠ [] ∧ e = .dependencyCycle (cycle (stalled nodes)) := by
  simp only [arrange] at h
  split at h
  · cases h
  · rename_i hblocked
    refine ⟨?_, (Except.error.inj h).symm⟩
    simpa [stalled] using hblocked

theorem resolve_error_cycle {c : Catalog} {selection path : List Tag}
    (h : resolve c selection = .error (.dependencyCycle path)) :
    IsCycle (Requires c) path ∧ (∀ t ∈ path, Reachable c selection t) ∧
      ∃ nodes, collect c selection = .ok nodes ∧ stalled nodes ≠ [] ∧
        path = cycle (stalled nodes) := by
  rcases resolve_cases c selection with ⟨_, _, hr⟩ | ⟨_, _, _, _, _, _, hr⟩ |
    ⟨_, found, hr, hcycle, hreach⟩ | ⟨_, _, hr, _⟩
  · rw [h] at hr; cases hr
  · rw [h] at hr; cases hr
  · rw [h] at hr
    cases hr
    refine ⟨hcycle, hreach, ?_⟩
    cases hcol : collect c selection with
    | error e =>
      -- collecting refuses a selection for a tag that is missing, never for a cycle
      rw [resolve, hcol] at h
      rcases collect_error hcol with ⟨_, _, rfl⟩ | ⟨_, _, _, _, _, _, rfl⟩ <;> cases h
    | ok nodes =>
      rw [resolve, hcol] at h
      obtain ⟨hne, heq⟩ := arrange_error h
      exact ⟨nodes, rfl, hne, MetricError.dependencyCycle.inj heq⟩
  · rw [h] at hr; cases hr

/-- A reported cycle is one. It closes where it began, repeats nothing else, lies within what the
selection reaches, and each tag on it directly requires the next. It is where the walk through the
stalled metrics comes back to a tag of its path: wherever that walk is, there is a next tag, its
path is no longer than there are stalled metrics, and any fuel above their number gives the same
path. -/
theorem cycle_reported {c : Catalog} {selection path : List Tag}
    (h : resolve c selection = .error (.dependencyCycle path)) :
    2 ≤ path.length ∧ path.head? = path.getLast? ∧ path.dropLast.Nodup ∧
      (∀ t ∈ path, Reachable c selection t) ∧ path.IsChain (Requires c) ∧
      ∃ nodes, collect c selection = .ok nodes ∧ stalled nodes ≠ [] ∧
        path = cycle (stalled nodes) ∧
        (∀ walked current, Walking (stalled nodes) walked current →
          walked.length ≤ (stalled nodes).length ∧ (next? (stalled nodes) current).isSome) ∧
        (∃ walked back, Walking (stalled nodes) walked back ∧ back ∈ walked ∧
          path = walked.dropWhile (· ≠ back) ++ [back]) ∧
        ∀ d ∈ (stalled nodes).head?, ∀ fuel, (stalled nodes).length < fuel →
          walk (stalled nodes) fuel [] d.tag = path := by
  obtain ⟨hcycle, hreach, nodes, hcol, hne, hpath⟩ := resolve_error_cycle h
  have hserial := stalled_waits (collect_ok hcol)
  obtain ⟨walked, back, hwalk, hback, hfound, hfuel⟩ := exists_cycle hne hserial
  refine ⟨hcycle.two_le_length, hcycle.head?_eq_getLast?, hcycle.dropLast_nodup, hreach,
    hcycle.linked, nodes, hcol, hne, hpath, ?_, ?_, ?_⟩
  · intro walked current hwalk
    exact ⟨hwalk.onWay.length_le, next?_isSome hserial hwalk.onWay.arrived⟩
  · exact ⟨walked, back, hwalk, hback, hpath.trans hfound⟩
  · rw [hpath]
    exact hfuel

/-- A metric that requires others and takes no records. -/
def requiring (tag : Tag) (required : List Tag) : Definition :=
  let d : Descriptor := ⟨tag, tag.text, .plain "count", .summary, false, false, required⟩
  ⟨d, .derived d fun _ => .ok 0.0⟩

/-- Two metrics that require each other. The selected one leads to them, and a third can be
placed. -/
def ring : Catalog where
  definitions := [requiring ⟨"in"⟩ [⟨"leaf"⟩, ⟨"a"⟩], requiring ⟨"a"⟩ [⟨"leaf"⟩, ⟨"b"⟩],
    requiring ⟨"b"⟩ [⟨"a"⟩, ⟨"in"⟩], requiring ⟨"leaf"⟩ []]
  distinct := by decide

theorem cycle_reported_ring :
    resolve ring [⟨"leaf"⟩, ⟨"in"⟩] = .error (.dependencyCycle [⟨"a"⟩, ⟨"b"⟩, ⟨"a"⟩]) ∧
      (∀ t ∈ [Tag.mk "a", ⟨"b"⟩, ⟨"a"⟩], Reachable ring [⟨"leaf"⟩, ⟨"in"⟩] t) ∧
      [Tag.mk "a", ⟨"b"⟩, ⟨"a"⟩].IsChain (Requires ring) ∧
      ∃ nodes, collect ring [⟨"leaf"⟩, ⟨"in"⟩] = .ok nodes ∧
        (∀ walked current, Walking (stalled nodes) walked current → walked.length ≤ 3 ∧
          (next? (stalled nodes) current).isSome) ∧
        ∃ walked back, Walking (stalled nodes) walked back ∧ back ∈ walked ∧
          [Tag.mk "a", ⟨"b"⟩, ⟨"a"⟩] = walked.dropWhile (· ≠ back) ++ [back] := by
  have hresolve : resolve ring [⟨"leaf"⟩, ⟨"in"⟩] =
      .error (.dependencyCycle [⟨"a"⟩, ⟨"b"⟩, ⟨"a"⟩]) := rfl
  obtain ⟨_, _, _, hreach, hlinked, nodes, hcol, _, _, hwalking, hfound, _⟩ :=
    cycle_reported hresolve
  refine ⟨hresolve, hreach, hlinked, nodes, hcol, ?_, hfound⟩
  obtain rfl : _ = nodes := Except.ok.inj hcol
  exact hwalking

end BenchMetrics.EvaluationOrder
