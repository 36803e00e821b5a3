import BenchMetrics.Metric.EvaluationOrder
import Mathlib.Data.List.Chain
import Mathlib.Data.List.Nodup
import Mathlib.Data.List.Perm.Subperm
import Mathlib.Logic.Relation

/-! The walk through blocked metrics. As long as each of them requires a blocked one, the walk
cannot end; it comes back to a tag within as many steps as there are metrics, and from there
on it is a cycle. -/
namespace BenchMetrics.EvaluationOrder
open Relation

/-- A closed walk along a relation: the last tag is the first one, no other repeats. -/
structure IsCycle (R : Tag → Tag → Prop) (path : List Tag) : Prop where
  closed : ∃ a rest, path = a :: rest ++ [a] ∧ (a :: rest).Nodup
  linked : path.IsChain R

theorem transGen_of_isChain {R : Tag → Tag → Prop} {a b : Tag} {rest : List Tag}
    (h : (a :: rest ++ [b]).IsChain R) : TransGen R a b := by
  induction rest generalizing a with
  | nil => exact .single (List.isChain_pair.mp h)
  | cons x rest ih =>
    obtain ⟨hax, hrest⟩ := List.isChain_cons_cons.mp h
    exact .head hax (ih hrest)

/-- A tag on a cycle leads back to itself. -/
theorem IsCycle.transGen {R : Tag → Tag → Prop} {path : List Tag} (h : IsCycle R path) :
    ∃ a ∈ path, TransGen R a a := by
  obtain ⟨a, rest, rfl, _⟩ := h.closed
  exact ⟨a, by simp, transGen_of_isChain h.linked⟩

/-- A blocked metric requires a blocked one. -/
def Waits (blocked : List Descriptor) (a b : Tag) : Prop :=
  ∃ d ∈ blocked, d.tag = a ∧ b ∈ d.required ∧ b ∈ blocked.map (·.tag)

theorem dropWhile_ne {path : List Tag} {t : Tag} (h : t ∈ path) :
    ∃ before after, path = before ++ t :: after ∧ path.dropWhile (· ≠ t) = t :: after := by
  induction path with
  | nil => cases h
  | cons x path ih =>
    by_cases hx : x = t
    · subst hx
      exact ⟨[], path, rfl, by simp⟩
    · obtain ⟨before, after, hpath, hdrop⟩ := ih ((List.mem_cons.mp h).resolve_left (Ne.symm hx))
      exact ⟨x :: before, after, by rw [hpath]; rfl, by simpa [hx] using hdrop⟩

/-- The blocked metric that the walk goes on to. -/
def next? (blocked : List Descriptor) (t : Tag) : Option Tag :=
  (blocked.find? (·.tag = t)).bind fun d => d.required.find? fun s => s ∈ blocked.map (·.tag)

/-- Where the walk comes, however many rounds it takes: the path behind it and the tag it is at. -/
inductive Walking (blocked : List Descriptor) : List Tag → Tag → Prop where
  | start {d : Descriptor} (hfirst : blocked.head? = some d) : Walking blocked [] d.tag
  | step {path : List Tag} {current t : Tag} (hwalk : Walking blocked path current)
    (hnew : current ∉ path) (hnext : next? blocked current = some t) :
    Walking blocked (path ++ [current]) t

section
variable {blocked : List Descriptor} {path : List Tag} {current : Tag}

theorem waits_of_next? {t : Tag} (h : next? blocked current = some t) :
    Waits blocked current t := by
  obtain ⟨d, hd, ht⟩ := Option.bind_eq_some_iff.mp h
  have htag : d.tag = current := by simpa using List.find?_some hd
  have hmem : t ∈ blocked.map (·.tag) := by simpa using List.find?_some ht
  exact ⟨d, List.mem_of_find?_eq_some hd, htag, List.mem_of_find?_eq_some ht, hmem⟩

/-- Where each blocked metric requires a blocked one, the walk can go on from any of them. -/
theorem next?_isSome (hserial : ∀ d ∈ blocked, ∃ t ∈ d.required, t ∈ blocked.map (·.tag))
    (hc : current ∈ blocked.map (·.tag)) : (next? blocked current).isSome := by
  obtain ⟨d₀, hd₀, ht₀⟩ := List.mem_map.mp hc
  rw [next?]
  cases hf : blocked.find? (·.tag = current) with
  | none => exact absurd ht₀ (by simpa using List.find?_eq_none.mp hf d₀ hd₀)
  | some d =>
    obtain ⟨t, ht, hmem⟩ := hserial d (List.mem_of_find?_eq_some hf)
    rw [Option.bind_some, List.find?_isSome]
    exact ⟨t, ht, by simpa using hmem⟩

/-- What holds wherever the walk comes. -/
structure OnWay (blocked : List Descriptor) (path : List Tag) (current : Tag) : Prop where
  distinct : path.Nodup
  inside : path ⊆ blocked.map (·.tag)
  arrived : current ∈ blocked.map (·.tag)
  linked : (path ++ [current]).IsChain (Waits blocked)

theorem Walking.onWay (h : Walking blocked path current) : OnWay blocked path current := by
  induction h with
  | @start d hfirst =>
    have hd : d ∈ blocked := List.mem_of_mem_head? (Option.mem_def.mpr hfirst)
    exact ⟨List.nodup_nil, by simp, List.mem_map_of_mem hd, List.isChain_singleton d.tag⟩
  | @step path current t _ hnew hnext ih =>
    have hwait := waits_of_next? hnext
    refine ⟨?_, ?_, hwait.choose_spec.2.2.2, ?_⟩
    · simpa [List.nodup_append, ih.distinct] using fun a ha => ne_of_mem_of_not_mem ha hnew
    · intro u hu
      rcases List.mem_append.mp hu with hu | hu
      · exact ih.inside hu
      · rw [List.mem_singleton.mp hu]
        exact ih.arrived
    · rw [List.append_assoc]
      exact List.isChain_append_cons_cons.mpr ⟨ih.linked, hwait, List.isChain_singleton t⟩

/-- The path never repeats a tag, so it is at most as long as there are blocked metrics. -/
theorem OnWay.length_le (h : OnWay blocked path current) : path.length ≤ blocked.length := by
  have hle := (h.distinct.subperm h.inside).length_le
  rwa [List.length_map] at hle

/-- A walk that is back at a tag of its path has closed a cycle. -/
theorem OnWay.isCycle (h : OnWay blocked path current) (hback : current ∈ path) :
    IsCycle (Waits blocked) (path.dropWhile (· ≠ current) ++ [current]) ∧
      path.dropWhile (· ≠ current) ++ [current] ⊆ blocked.map (·.tag) := by
  obtain ⟨before, after, rfl, hdrop⟩ := dropWhile_ne hback
  have hlink := h.linked
  rw [List.append_assoc] at hlink
  rw [hdrop]
  refine ⟨⟨⟨current, after, rfl, h.distinct.of_append_right⟩, hlink.right_of_append⟩, ?_⟩
  intro t ht
  rcases List.mem_append.mp ht with ht | ht
  · exact h.inside (List.mem_append_right _ ht)
  · rw [List.mem_singleton.mp ht]
    exact h.arrived

/-- One round of the walk, from a tag that is not on the path. -/
theorem walk_next {t : Tag} (hnew : current ∉ path) (hnext : next? blocked current = some t)
    (fuel : Nat) :
    walk blocked (fuel + 1) path current = walk blocked fuel (path ++ [current]) t := by
  rw [next?] at hnext
  simp only [walk, if_neg hnew, hnext]

/-- Where no metric is a dead end, the fuel outlasts the walk: it ends where it is back at a tag
of its path. -/
theorem walk_ends (hserial : ∀ d ∈ blocked, ∃ t ∈ d.required, t ∈ blocked.map (·.tag))
    (h : Walking blocked path current) {fuel : Nat}
    (hfuel : blocked.length < fuel + path.length) :
    ∃ walked back, Walking blocked walked back ∧ back ∈ walked ∧
      ∀ more, walk blocked (fuel + more) path current =
        walked.dropWhile (· ≠ back) ++ [back] := by
  induction fuel generalizing path current with
  | zero =>
    have hle := h.onWay.length_le
    omega
  | succ fuel ih =>
    by_cases hback : current ∈ path
    · refine ⟨path, current, h, hback, fun more => ?_⟩
      rw [Nat.succ_add, walk, if_pos hback]
    · obtain ⟨t, hnext⟩ := Option.isSome_iff_exists.mp (next?_isSome hserial h.onWay.arrived)
      have hlength : blocked.length < fuel + (path ++ [current]).length := by
        rw [List.length_append, List.length_singleton]
        omega
      obtain ⟨walked, back, hwalk, hmem, hpath⟩ := ih (h.step hback hnext) hlength
      refine ⟨walked, back, hwalk, hmem, fun more => ?_⟩
      rw [Nat.succ_add, walk_next hback hnext]
      exact hpath more

end

/-- The walk from the first blocked metric, where no metric is a dead end. -/
theorem exists_cycle {blocked : List Descriptor} (hne : blocked ≠ [])
    (hserial : ∀ d ∈ blocked, ∃ t ∈ d.required, t ∈ blocked.map (·.tag)) :
    ∃ walked back, Walking blocked walked back ∧ back ∈ walked ∧
      cycle blocked = walked.dropWhile (· ≠ back) ++ [back] ∧
      ∀ d ∈ blocked.head?, ∀ fuel, blocked.length < fuel →
        walk blocked fuel [] d.tag = cycle blocked := by
  cases blocked with
  | nil => exact absurd rfl hne
  | cons d rest =>
    obtain ⟨walked, back, hwalk, hback, hpath⟩ :=
      walk_ends hserial (.start rfl) (Nat.lt_succ_self (d :: rest).length)
    refine ⟨walked, back, hwalk, hback, hpath 0, ?_⟩
    intro e he fuel hfuel
    obtain rfl : d = e := Option.some.inj he
    obtain ⟨more, rfl⟩ := Nat.exists_eq_add_of_lt hfuel
    rw [Nat.add_right_comm, hpath more]
    exact (hpath 0).symm

theorem cycle_isCycle {blocked : List Descriptor} (hne : blocked ≠ [])
    (hserial : ∀ d ∈ blocked, ∃ t ∈ d.required, t ∈ blocked.map (·.tag)) :
    IsCycle (Waits blocked) (cycle blocked) ∧ cycle blocked ⊆ blocked.map (·.tag) := by
  obtain ⟨walked, back, hwalk, hback, hpath, _⟩ := exists_cycle hne hserial
  rw [hpath]
  exact hwalk.onWay.isCycle hback

end BenchMetrics.EvaluationOrder
