import BenchMetrics.Metric.EvaluationOrder
import Mathlib.Logic.Relation
import Mathlib.Data.List.Nodup
import Mathlib.Data.List.Perm.Subperm

/-! What a selection needs. A metric is reached from a selection by any number of requirements;
the search finds exactly the metrics that are reached, each once, or a requirement of one of
them that is in no catalog. -/
namespace BenchMetrics.EvaluationOrder
open Relation

/-- The metric under the first tag lists the second among those it requires. -/
def Requires (c : Catalog) (a b : Tag) : Prop :=
  ∃ d, c.get? a = some d ∧ b ∈ d.descriptor.required

/-- Selected, or required by what is selected through any number of steps. -/
def Reachable (c : Catalog) (selection : List Tag) (t : Tag) : Prop :=
  ∃ s ∈ selection, ReflTransGen (Requires c) s t

/-- The descriptor that the catalog holds under its tag. -/
def Registered (c : Catalog) (d : Descriptor) : Prop :=
  ∃ e, c.get? d.tag = some e ∧ e.descriptor = d

theorem Reachable.step {c : Catalog} {selection : List Tag} {a b : Tag}
    (h : Reachable c selection a) (hr : Requires c a b) : Reachable c selection b := by
  obtain ⟨s, hs, hsa⟩ := h
  exact ⟨s, hs, hsa.tail hr⟩

theorem mem_of_get? {c : Catalog} {t : Tag} {e : Definition} (h : c.get? t = some e) :
    e ∈ c.definitions ∧ e.descriptor.tag = t := by
  have ht := List.find?_some h
  exact ⟨List.mem_of_find?_eq_some h, of_decide_eq_true ht⟩

theorem registered_of_get? {c : Catalog} {t : Tag} {e : Definition} (h : c.get? t = some e) :
    Registered c e.descriptor := by
  obtain ⟨_, ht⟩ := mem_of_get? h
  exact ⟨e, by rw [ht]; exact h, rfl⟩

theorem requires_of_registered {c : Catalog} {d : Descriptor} (h : Registered c d) {t : Tag} :
    Requires c d.tag t ↔ t ∈ d.required := by
  obtain ⟨e, he, hd⟩ := h
  constructor
  · intro hr
    obtain ⟨e', he', ht⟩ := hr
    rw [he, Option.some.injEq] at he'
    rwa [← he', hd] at ht
  · intro ht
    exact ⟨e, he, by rwa [hd]⟩

/-- Distinct tags that are all registered are no more than the catalog holds. -/
theorem length_le_size {c : Catalog} {ts : List Tag} (hn : ts.Nodup)
    (hk : ∀ t ∈ ts, (c.get? t).isSome) : ts.length ≤ c.size := by
  have hsub : ts ⊆ c.tags := by
    intro t ht
    obtain ⟨e, he⟩ := Option.isSome_iff_exists.mp (hk t ht)
    obtain ⟨hm, rfl⟩ := mem_of_get? he
    exact List.mem_map.mpr ⟨e, hm, rfl⟩
  have hle := (hn.subperm hsub).length_le
  simpa only [Catalog.tags, Catalog.size, List.length_map] using hle

/-- What looking up the tags `ts` adds to those seen before. -/
structure Found (c : Catalog) (seen ts : List Tag) (ds : List Descriptor) (seen' : List Tag) :
    Prop where
  known : ∀ t ∈ ts, (c.get? t).isSome
  seen_eq : seen' = seen ++ ds.map (·.tag)
  registered : ∀ d ∈ ds, Registered c d
  requested : ∀ d ∈ ds, d.tag ∈ ts
  covered : ∀ t ∈ ts, t ∈ seen'
  distinct : seen.Nodup → seen'.Nodup

theorem discover_ok {c : Catalog} {f : Tag → MetricError} {seen ts seen' : List Tag}
    {ds : List Descriptor} (h : discover c f seen ts = .ok (ds, seen')) :
    Found c seen ts ds seen' := by
  induction ts generalizing seen ds seen' with
  | nil =>
    simp only [discover, Except.ok.injEq, Prod.mk.injEq] at h
    obtain ⟨rfl, rfl⟩ := h
    exact ⟨by simp, by simp, by simp, by simp, by simp, id⟩
  | cons t ts ih =>
    simp only [discover] at h
    split at h
    · cases h
    rename_i e he
    obtain ⟨_, ht⟩ := mem_of_get? he
    split at h
    · rename_i hseen
      have hf := ih h
      refine ⟨?_, hf.seen_eq, hf.registered, ?_, ?_, hf.distinct⟩
      · intro s hs
        cases hs with
        | head => simp [he]
        | tail _ hs => exact hf.known s hs
      · intro d hd
        exact .tail _ (hf.requested d hd)
      · intro s hs
        cases hs with
        | head =>
          rw [hf.seen_eq]
          exact List.mem_append_left _ hseen
        | tail _ hs => exact hf.covered s hs
    · rename_i hseen
      cases hr : discover c f (seen ++ [t]) ts with
      | error x => simp [hr, bind, Except.bind] at h
      | ok p =>
        obtain ⟨rest, last⟩ := p
        simp only [hr, bind, Except.bind, Except.ok.injEq, Prod.mk.injEq] at h
        obtain ⟨rfl, rfl⟩ := h
        have hf := ih hr
        refine ⟨?_, ?_, ?_, ?_, ?_, ?_⟩
        · intro s hs
          cases hs with
          | head => simp [he]
          | tail _ hs => exact hf.known s hs
        · rw [hf.seen_eq, List.map_cons, ht, List.append_assoc, List.singleton_append]
        · intro d hd
          cases hd with
          | head => exact registered_of_get? he
          | tail _ hd => exact hf.registered d hd
        · intro d hd
          cases hd with
          | head =>
            rw [ht]
            exact .head _
          | tail _ hd => exact .tail _ (hf.requested d hd)
        · intro s hs
          cases hs with
          | head =>
            rw [hf.seen_eq]
            simp
          | tail _ hs => exact hf.covered s hs
        · intro hn
          apply hf.distinct
          rw [List.nodup_append]
          refine ⟨hn, List.nodup_singleton t, ?_⟩
          intro a ha b hb heq
          rw [List.mem_singleton] at hb
          rw [heq, hb] at ha
          exact hseen ha

theorem discover_error {c : Catalog} {f : Tag → MetricError} {seen ts : List Tag}
    {e : MetricError} (h : discover c f seen ts = .error e) :
    ∃ t, ts.find? (fun t => (c.get? t).isNone) = some t ∧ e = f t := by
  induction ts generalizing seen with
  | nil => cases h
  | cons t ts ih =>
    simp only [discover] at h
    split at h
    · rename_i he
      cases h
      exact ⟨t, by simp [he], rfl⟩
    · rename_i d he
      have hrest : ∃ s, discover c f s ts = .error e := by
        split at h
        · exact ⟨_, h⟩
        · cases hr : discover c f (seen ++ [t]) ts with
          | error x =>
            simp only [hr, bind, Except.bind, Except.error.injEq] at h
            exact ⟨_, h ▸ hr⟩
          | ok p => simp [hr, bind, Except.bind] at h
      obtain ⟨s, hs⟩ := hrest
      obtain ⟨m, hm, rfl⟩ := ih hs
      exact ⟨m, by simpa [List.find?_cons, he] using hm, rfl⟩

/-- A round of the search: `done` are the tags of the metrics whose requirements have been
followed, and there is fuel for all that are not done. -/
structure Frontier (c : Catalog) (fuel : Nat) (done seen : List Tag) (pending : List Descriptor) :
    Prop where
  seen_eq : seen = done ++ pending.map (·.tag)
  distinct : seen.Nodup
  known : ∀ t ∈ seen, (c.get? t).isSome
  registered : ∀ d ∈ pending, Registered c d
  enough : c.size ≤ fuel + done.length

theorem Frontier.next {c : Catalog} {fuel : Nat} {done seen seen' : List Tag} {d : Descriptor}
    {pending found : List Descriptor} (h : Frontier c (fuel + 1) done seen (d :: pending))
    (hf : Found c seen d.required found seen') :
    Frontier c fuel (done ++ [d.tag]) seen' (pending ++ found) := by
  refine ⟨?_, hf.distinct h.distinct, ?_, ?_, ?_⟩
  · rw [hf.seen_eq, h.seen_eq]
    simp
  · intro t ht
    rw [hf.seen_eq, List.mem_append] at ht
    rcases ht with ht | ht
    · exact h.known t ht
    · obtain ⟨d', hd', rfl⟩ := List.mem_map.mp ht
      exact hf.known _ (hf.requested d' hd')
  · intro d' hd'
    rcases List.mem_append.mp hd' with hd' | hd'
    · exact h.registered d' (.tail _ hd')
    · exact hf.registered d' hd'
  · -- one metric more is done, and one unit of fuel is gone
    have henough := h.enough
    rw [List.length_append, List.length_singleton]
    omega

/-- A frontier with something pending has fuel: what has been seen fits into the catalog. -/
theorem Frontier.fuel_pos {c : Catalog} {fuel : Nat} {done seen : List Tag} {d : Descriptor}
    {pending : List Descriptor} (h : Frontier c fuel done seen (d :: pending)) : 0 < fuel := by
  have hle := length_le_size h.distinct h.known
  have henough := h.enough
  rw [h.seen_eq, List.length_append, List.length_map, List.length_cons] at hle
  omega

/-- What the search makes of a frontier. -/
structure Searched (c : Catalog) (done : List Tag) (pending ds : List Descriptor) : Prop where
  distinct : (done ++ ds.map (·.tag)).Nodup
  registered : ∀ d ∈ ds, Registered c d
  includes : ∀ d ∈ pending, d ∈ ds
  closed : ∀ d ∈ ds, ∀ t ∈ d.required, t ∈ done ++ ds.map (·.tag)
  reached : ∀ d ∈ ds, ∃ p ∈ pending, ReflTransGen (Requires c) p.tag d.tag

theorem Frontier.searched {c : Catalog} {fuel : Nat} {done seen : List Tag}
    (h : Frontier c fuel done seen []) : Searched c done [] [] := by
  refine ⟨?_, by simp, by simp, by simp, by simp⟩
  have hdistinct := h.distinct
  rw [h.seen_eq] at hdistinct
  exact hdistinct

theorem close_ok {c : Catalog} {fuel : Nat} {done seen : List Tag}
    {pending ds : List Descriptor} (hp : Frontier c fuel done seen pending)
    (h : close c fuel seen pending = .ok ds) : Searched c done pending ds := by
  induction fuel generalizing done seen pending ds with
  | zero =>
    cases pending with
    | nil =>
      cases h
      exact hp.searched
    | cons d pending =>
      -- the fuel does not run out before the search is over
      exact absurd hp.fuel_pos (Nat.lt_irrefl 0)
  | succ fuel ih =>
    cases pending with
    | nil =>
      cases h
      exact hp.searched
    | cons d pending =>
      simp only [close, bind, Except.bind] at h
      split at h
      · cases h
      rename_i p hdis
      obtain ⟨found, seen'⟩ := p
      split at h
      · cases h
      rename_i rest hrest
      cases h
      have hf := discover_ok hdis
      have hn := hp.next hf
      have hs := ih hn hrest
      have hd : Registered c d := hp.registered d (.head _)
      have htags : done ++ (d :: rest).map (·.tag) = done ++ [d.tag] ++ rest.map (·.tag) := by
        rw [List.map_cons, List.append_assoc, List.singleton_append]
      refine ⟨?_, ?_, ?_, ?_, ?_⟩
      · rw [htags]
        exact hs.distinct
      · intro x hx
        cases hx with
        | head => exact hd
        | tail _ hx => exact hs.registered x hx
      · intro x hx
        cases hx with
        | head => exact .head _
        | tail _ hx => exact .tail _ (hs.includes x (List.mem_append_left _ hx))
      · intro x hx t ht
        rw [htags]
        cases hx with
        | head =>
          -- the requirements of the metric in hand have been seen, so they are done or pending
          have hseen := hf.covered t ht
          rw [hn.seen_eq] at hseen
          rcases List.mem_append.mp hseen with hdone | hpend
          · exact List.mem_append_left _ hdone
          · obtain ⟨y, hy, rfl⟩ := List.mem_map.mp hpend
            have hrest : y.tag ∈ rest.map (·.tag) := List.mem_map_of_mem (hs.includes y hy)
            exact List.mem_append_right _ hrest
        | tail _ hx => exact hs.closed x hx t ht
      · intro x hx
        cases hx with
        | head => exact ⟨d, .head _, .refl⟩
        | tail _ hx =>
          obtain ⟨y, hy, hyx⟩ := hs.reached x hx
          rcases List.mem_append.mp hy with hy | hy
          · exact ⟨y, .tail _ hy, hyx⟩
          · -- it was found from the metric in hand
            have hreq : Requires c d.tag y.tag :=
              (requires_of_registered hd).mpr (hf.requested y hy)
            exact ⟨d, .head _, .head hreq hyx⟩

theorem close_error {c : Catalog} {fuel : Nat} {seen : List Tag} {pending : List Descriptor}
    {e : MetricError} (hp : ∀ d ∈ pending, Registered c d)
    (h : close c fuel seen pending = .error e) :
    ∃ m t, (∃ p ∈ pending, ReflTransGen (Requires c) p.tag m) ∧ Requires c m t ∧
      c.get? t = none ∧ e = .unknownDependency m t := by
  induction fuel generalizing seen pending with
  | zero => cases pending <;> cases h
  | succ fuel ih =>
    cases pending with
    | nil => cases h
    | cons d pending =>
      have hd : Registered c d := hp d (.head _)
      simp only [close, bind, Except.bind] at h
      split at h
      · rename_i x hdis
        cases h
        obtain ⟨t, ht, rfl⟩ := discover_error hdis
        have hreq := (requires_of_registered hd).mpr (List.mem_of_find?_eq_some ht)
        have hnone := List.find?_some ht
        exact ⟨d.tag, t, ⟨d, .head _, .refl⟩, hreq, Option.isNone_iff_eq_none.mp hnone, rfl⟩
      · rename_i p hdis
        obtain ⟨found, seen'⟩ := p
        have hf := discover_ok hdis
        split at h
        · rename_i x hrest
          cases h
          have hall : ∀ y ∈ pending ++ found, Registered c y := by
            intro y hy
            rcases List.mem_append.mp hy with hy | hy
            · exact hp y (.tail _ hy)
            · exact hf.registered y hy
          obtain ⟨m, t, ⟨y, hy, hym⟩, hrest⟩ := ih hall hrest
          refine ⟨m, t, ?_, hrest⟩
          rcases List.mem_append.mp hy with hy | hy
          · exact ⟨y, .tail _ hy, hym⟩
          · have hreq := (requires_of_registered hd).mpr (hf.requested y hy)
            exact ⟨d, .head _, .head hreq hym⟩
        · cases h

/-- The metrics that a selection needs, each once. -/
structure Collected (c : Catalog) (selection : List Tag) (nodes : List Descriptor) : Prop where
  distinct : (nodes.map (·.tag)).Nodup
  registered : ∀ d ∈ nodes, Registered c d
  mem_iff : ∀ t, t ∈ nodes.map (·.tag) ↔ Reachable c selection t

theorem Collected.closed {c : Catalog} {selection : List Tag} {nodes : List Descriptor}
    (h : Collected c selection nodes) {d : Descriptor} (hd : d ∈ nodes) {t : Tag}
    (ht : t ∈ d.required) : t ∈ nodes.map (·.tag) := by
  rw [h.mem_iff]
  have hr := (h.mem_iff d.tag).mp (List.mem_map_of_mem hd)
  exact hr.step ((requires_of_registered (h.registered d hd)).mpr ht)

theorem Collected.known {c : Catalog} {selection : List Tag} {nodes : List Descriptor}
    (h : Collected c selection nodes) {t : Tag} (ht : Reachable c selection t) :
    (c.get? t).isSome := by
  obtain ⟨d, hd, rfl⟩ := List.mem_map.mp ((h.mem_iff t).mpr ht)
  obtain ⟨e, he, _⟩ := h.registered d hd
  simp [he]

theorem collect_ok {c : Catalog} {selection : List Tag} {nodes : List Descriptor}
    (h : collect c selection = .ok nodes) : Collected c selection nodes := by
  simp only [collect, bind, Except.bind] at h
  split at h
  · cases h
  rename_i p hdis
  obtain ⟨found, seen⟩ := p
  have hf := discover_ok hdis
  have hseen : seen = found.map (·.tag) := by simpa using hf.seen_eq
  have hp : Frontier c c.size [] seen found := by
    refine ⟨by simpa using hseen, hf.distinct List.nodup_nil, ?_, hf.registered, by simp⟩
    intro t ht
    rw [hseen] at ht
    obtain ⟨d, hd, rfl⟩ := List.mem_map.mp ht
    exact hf.known _ (hf.requested d hd)
  have hs := close_ok hp h
  refine ⟨by simpa using hs.distinct, hs.registered, fun t => ⟨?_, ?_⟩⟩
  · intro ht
    obtain ⟨d, hd, rfl⟩ := List.mem_map.mp ht
    obtain ⟨y, hy, hyd⟩ := hs.reached d hd
    exact ⟨y.tag, hf.requested y hy, hyd⟩
  · intro ht
    obtain ⟨s, hs', hst⟩ := ht
    -- the collected metrics hold the selection and are closed under requirement
    induction hst with
    | refl =>
      have hcovered := hf.covered s hs'
      rw [hseen] at hcovered
      obtain ⟨d, hd, rfl⟩ := List.mem_map.mp hcovered
      exact List.mem_map_of_mem (hs.includes d hd)
    | tail _ hreq ih =>
      obtain ⟨d, hd, rfl⟩ := List.mem_map.mp ih
      have ht := (requires_of_registered (hs.registered d hd)).mp hreq
      simpa using hs.closed d hd _ ht

theorem collect_error {c : Catalog} {selection : List Tag} {e : MetricError}
    (h : collect c selection = .error e) :
    (∃ t, selection.find? (fun t => (c.get? t).isNone) = some t ∧ e = .unknownMetric t.text) ∨
      ((∀ t ∈ selection, (c.get? t).isSome) ∧ ∃ m t, Reachable c selection m ∧
        Requires c m t ∧ c.get? t = none ∧ e = .unknownDependency m t) := by
  simp only [collect, bind, Except.bind] at h
  split at h
  · rename_i x hdis
    cases h
    exact Or.inl (discover_error hdis)
  · rename_i p hdis
    obtain ⟨found, seen⟩ := p
    have hf := discover_ok hdis
    obtain ⟨m, t, ⟨y, hy, hym⟩, hrest⟩ := close_error hf.registered h
    exact Or.inr ⟨hf.known, m, t, ⟨y.tag, hf.requested y hy, hym⟩, hrest⟩

end BenchMetrics.EvaluationOrder
