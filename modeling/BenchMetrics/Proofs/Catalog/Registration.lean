import BenchMetrics.Metric.Registrar
import BenchMetrics.Proofs.Catalog.Naming
import BenchMetrics.Proofs.Tally.Dict
import BenchMetrics.Proofs.Tally.Keyed

/-! Registration. A registrar is always that of a catalog: its entries and the tags it has taken
stay in step through accepted and refused calls alike, and the index made of it answers as the
catalog does. -/
namespace BenchMetrics

namespace Catalog

/-- Everything that registering one metric can come to. -/
theorem register_cases (c : Catalog) (d : Definition) :
    (∃ t fault, d.FirstFault t fault ∧ c.register d = .error (.invalidTag t fault)) ∨
      ((∀ t ∈ d.names, t.WellFormed) ∧ d.tag ∈ c.tags ∧
        c.register d = .error (.duplicateTag d.tag)) ∨
      ((∀ t ∈ d.names, t.WellFormed) ∧ d.tag ∉ c.tags ∧
        ∃ c', c.register d = .ok c' ∧ c'.definitions = c.definitions ++ [d]) := by
  rw [register]
  split
  · rename_i e he
    obtain ⟨t, fault, hfault, rfl⟩ := (d.tagError?_eq_some_iff e).mp he
    exact .inl ⟨t, fault, hfault, rfl⟩
  · rename_i hnone
    have hnames := (d.tagError?_eq_none_iff).mp hnone
    by_cases ht : d.tag ∈ c.definitions.map Definition.tag
    · exact .inr (.inl ⟨hnames, ht, dif_pos ht⟩)
    · exact .inr (.inr ⟨hnames, ht, _, dif_neg ht, rfl⟩)

/-- A catalog as a registrar. -/
def registrar (c : Catalog) : Registrar := ⟨c.definitions, c.tags⟩

/-- The catalog after calls of which some may be refused. -/
def after (calls : List Definition) : Catalog :=
  calls.foldl (fun c d => (c.register d).toOption.getD c) empty

end Catalog

namespace Registrar

/-- A call does to both collections of a registrar what it does to the catalog. -/
theorem register_registrar (c : Catalog) (d : Definition) :
    c.registrar.register d = match c.register d with
      | .ok c' => (c'.registrar, .ok ())
      | .error e => (c.registrar, .error e) := by
  rw [register, Catalog.register]
  cases d.tagError? with
  | some e => rfl
  | none =>
    by_cases ht : d.tag ∈ c.definitions.map Definition.tag
    · have hseen : take c.registrar.taken d.tag = (c.registrar.taken, false) := if_pos ht
      simp only [hseen, dif_pos ht]
    · have hfree : take c.registrar.taken d.tag = (c.registrar.taken ++ [d.tag], true) := if_neg ht
      simp only [hfree, dif_neg ht]
      simp [Catalog.registrar, Catalog.tags]

theorem foldl_register (c : Catalog) (calls : List Definition) :
    calls.foldl (fun r d => (r.register d).1) c.registrar =
        (calls.foldl (fun c d => (c.register d).toOption.getD c) c).registrar ∧
      c.definitions ++ accepted c.registrar calls =
        (calls.foldl (fun c d => (c.register d).toOption.getD c) c).definitions := by
  induction calls generalizing c with
  | nil => exact ⟨rfl, List.append_nil _⟩
  | cons d calls ih =>
    rw [List.foldl_cons, List.foldl_cons, accepted, register_registrar]
    rcases c.register_cases d with ⟨_, _, _, he⟩ | ⟨_, _, he⟩ | ⟨_, _, c', hc', hdefs⟩
    · rw [he]
      exact ih c
    · rw [he]
      exact ih c
    · rw [hc']
      refine ⟨(ih c').1, ?_⟩
      have hrest := (ih c').2
      rwa [hdefs, List.append_assoc] at hrest

theorem after_eq (calls : List Definition) : after calls = (Catalog.after calls).registrar :=
  (foldl_register .empty calls).1

theorem accepted_eq (calls : List Definition) :
    accepted empty calls = (Catalog.after calls).definitions :=
  (foldl_register .empty calls).2

theorem accepted_eq_entries (calls : List Definition) :
    accepted empty calls = (after calls).entries := by
  rw [accepted_eq, after_eq]
  rfl

theorem after_concat (calls : List Definition) (d : Definition) :
    after (calls ++ [d]) = ((after calls).register d).1 :=
  List.foldl_concat ..

/-- A call succeeds for a well-named metric whose tag is free. -/
theorem register_ok_iff (c : Catalog) (d : Definition) :
    (c.registrar.register d).2 = .ok () ↔
      (∀ t ∈ d.names, t.WellFormed) ∧ ∀ a ∈ c.definitions, a.tag ≠ d.tag := by
  have hfree : d.tag ∉ c.tags ↔ ∀ a ∈ c.definitions, a.tag ≠ d.tag := by
    simp [Catalog.tags]
  rw [register_registrar, ← hfree]
  rcases c.register_cases d with ⟨t, fault, ⟨before, later, hnames, _, hfault⟩, he⟩ |
    ⟨_, htaken, he⟩ | ⟨hnames, ht, c', hc', _⟩
  · have hbad : ¬ t.WellFormed := by
      rw [← t.fault?_eq_none_iff, hfault]
      exact Option.some_ne_none fault
    have hmem : t ∈ d.names := by
      rw [hnames]
      simp
    rw [he]
    exact iff_of_false (by simp) fun h => hbad (h.1 t hmem)
  · rw [he]
    exact iff_of_false (by simp) fun h => h.2 htaken
  · rw [hc']
    exact iff_of_true rfl ⟨hnames, ht⟩

/-- A refused call changes nothing, and reports a tag that is not well-formed in front of one
that is taken. -/
theorem register_refused {c : Catalog} {d : Definition} {e : MetricError}
    (h : (c.registrar.register d).2 = .error e) :
    (c.registrar.register d).1 = c.registrar ∧
      ((∃ t fault, d.FirstFault t fault ∧ e = .invalidTag t fault) ∨
        (∀ t ∈ d.names, t.WellFormed) ∧ (∃ a ∈ c.definitions, a.tag = d.tag) ∧
          e = .duplicateTag d.tag) := by
  rw [register_registrar] at h ⊢
  rcases c.register_cases d with ⟨t, fault, hfault, he⟩ | ⟨hnames, htaken, he⟩ |
    ⟨_, _, c', hc', _⟩
  · rw [he] at h ⊢
    exact ⟨rfl, .inl ⟨t, fault, hfault, (Except.error.inj h).symm⟩⟩
  · rw [he] at h ⊢
    exact ⟨rfl, .inr ⟨hnames, List.mem_map.mp htaken, (Except.error.inj h).symm⟩⟩
  · rw [hc'] at h
    cases h

theorem registerEach_registrar (ds : List Definition) (c : Catalog) :
    ((registerEach ds c.registrar).2 = (c.registerAll ds).map fun _ => ()) ∧
      ∀ c', c.registerAll ds = .ok c' → (registerEach ds c.registrar).1 = c'.registrar := by
  induction ds generalizing c with
  | nil =>
    refine ⟨rfl, fun c' h => ?_⟩
    cases h
    rfl
  | cons d ds ih =>
    have hall : c.registerAll (d :: ds) = c.register d >>= fun c' => c'.registerAll ds := rfl
    rw [registerEach, register_registrar, hall]
    cases c.register d with
    | error e => exact ⟨rfl, fun c' h => nomatch h⟩
    | ok c₁ => exact ih c₁

/-- Groups of metrics are discovered as the catalog of the groups is made. -/
theorem discoverFrom_registrar (groups : List (List Definition)) (c : Catalog) :
    discoverFrom c.registrar (groups.map registerEach) =
      (groups.foldlM Catalog.registerAll c).map (·.registrar.build) := by
  induction groups generalizing c with
  | nil => rfl
  | cons ds groups ih =>
    obtain ⟨hanswer, hstate⟩ := registerEach_registrar ds c
    rw [List.map_cons, discoverFrom, List.foldlM_cons]
    cases hall : c.registerAll ds with
    | error e =>
      have hfailed : registerEach ds c.registrar = ((registerEach ds c.registrar).1, .error e) :=
        Prod.ext rfl (hanswer.trans (congrArg (Except.map _) hall))
      rw [hfailed]
      rfl
    | ok c₁ =>
      have hdone : registerEach ds c.registrar = (c₁.registrar, .ok ()) :=
        Prod.ext (hstate c₁ hall) (hanswer.trans (congrArg (Except.map _) hall))
      rw [hdone]
      exact ih c₁

/-- Each contributor succeeds on what those in front of it leave. -/
def AllSucceed (r : Registrar) (cs : List Contributor) : Prop :=
  ∀ before c later, cs = before ++ c :: later → (c (r.through before)).2 = .ok ()

section
variable {cs : List Contributor} {r : Registrar}

theorem allSucceed_cons {c : Contributor} :
    AllSucceed r (c :: cs) ↔ (c r).2 = .ok () ∧ AllSucceed (c r).1 cs := by
  constructor
  · intro h
    refine ⟨h [] c cs rfl, fun before u later hsplit => ?_⟩
    exact h (c :: before) u later (congrArg (c :: ·) hsplit)
  · intro h before u later hsplit
    cases before with
    | nil =>
      cases hsplit
      exact h.1
    | cons b before =>
      cases hsplit
      exact h.2 before u later rfl

/-- Discovery fails with the answer of the first contributor that fails. -/
theorem discoverFrom_error_iff {e : MetricError} :
    discoverFrom r cs = .error e ↔ ∃ before c later, cs = before ++ c :: later ∧
      AllSucceed r before ∧ (c (r.through before)).2 = .error e := by
  induction cs generalizing r with
  | nil => exact iff_of_false (by simp [discoverFrom]) (by simp)
  | cons c cs ih =>
    rw [discoverFrom]
    rcases hc : c r with ⟨r', answer⟩
    constructor
    · intro h
      cases answer with
      | error e' =>
        obtain rfl : e' = e := Except.error.inj h
        exact ⟨[], c, cs, rfl, by simp [AllSucceed], congrArg Prod.snd hc⟩
      | ok _ =>
        obtain ⟨before, u, later, rfl, hbefore, hu⟩ := ih.mp h
        refine ⟨c :: before, u, later, rfl, allSucceed_cons.mpr ?_, ?_⟩
        · rw [hc]
          exact ⟨rfl, hbefore⟩
        · rwa [through, List.foldl_cons, hc]
    · rintro ⟨before, u, later, hsplit, hbefore, hu⟩
      cases before with
      | nil =>
        cases hsplit
        have hanswer : answer = .error e := (congrArg Prod.snd hc).symm.trans hu
        rw [hanswer]
      | cons b before =>
        cases hsplit
        rw [allSucceed_cons, hc] at hbefore
        rw [through, List.foldl_cons, hc] at hu
        obtain ⟨rfl, hbefore⟩ := hbefore
        exact ih.mpr ⟨before, u, later, rfl, hbefore, hu⟩

theorem discoverFrom_of_allSucceed (h : AllSucceed r cs) :
    discoverFrom r cs = .ok (r.through cs).build := by
  induction cs generalizing r with
  | nil => rfl
  | cons c cs ih =>
    obtain ⟨hfirst, hrest⟩ := allSucceed_cons.mp h
    have hc : c r = ((c r).1, .ok ()) := Prod.ext rfl hfirst
    rw [discoverFrom, hc]
    exact ih hrest

end

end Registrar

/-- An index of these metrics, in this order: each is found under its tag and nothing else is. -/
structure Index.Holds (i : Index) (ds : List Definition) : Prop where
  tags : i.tags = ds.map Definition.tag
  distinct : i.tags.Nodup
  get?_eq_some_iff : ∀ t d, i.get? t = some d ↔ d ∈ ds ∧ d.tag = t
  lookup_text : ∀ t : Tag, i.lookup t.text = i.get? t
  get?_other : ∀ t ∉ i.tags, i.get? t = none
  descriptors : i.descriptors = ds.map (·.descriptor)
  keys : i.definitions.keys.Perm (i.tags.map Tag.text)
  size : i.size = i.tags.length

/-- The index gives the answers of the catalog. -/
structure Index.AnswersAs (i : Index) (c : Catalog) : Prop where
  get? : ∀ t, i.get? t = c.get? t
  lookup : ∀ name, i.lookup name = c.lookup name
  tags : i.tags = c.tags
  descriptors : i.descriptors = c.descriptors
  size : i.size = c.size

namespace Catalog
variable (c : Catalog)

theorem perm_build :
    c.registrar.build.definitions.entries.Perm (c.definitions.map fun d => (d.tag.text, d)) := by
  apply Dict.perm_ofList
  have hkeys : (c.registrar.entries.map fun d => (d.tag.text, d)).map Prod.fst =
      (c.definitions.map Definition.tag).map Tag.text := by
    rw [List.map_map, List.map_map]
    rfl
  rw [hkeys]
  exact Tag.nodup_texts c.distinct

theorem get?_build (t : Tag) : c.registrar.build.get? t = c.get? t := by
  apply Option.ext
  intro d
  rw [Index.get?, Dict.get?_eq_some_iff, c.perm_build.mem_iff, Catalog.get?,
    find?_key_eq_some_iff c.distinct, List.mem_map]
  constructor
  · rintro ⟨d', hd', heq⟩
    obtain ⟨htext, rfl⟩ := Prod.mk.inj heq
    exact ⟨hd', Tag.text_inj.mp htext⟩
  · rintro ⟨hd, rfl⟩
    exact ⟨d, hd, rfl⟩

theorem lookup_build (name : String) : c.registrar.build.lookup name = c.lookup name := by
  have hvalues : c.registrar.build.definitions.values.Perm c.definitions := by
    have hperm := c.perm_build.map Prod.snd
    rwa [List.map_map, Function.comp_def, List.map_id'] at hperm
  have hdistinct : (c.definitions.map (·.tag.text)).Nodup := by
    have hn := Tag.nodup_texts c.distinct
    rwa [List.map_map] at hn
  rw [Index.lookup, ← find?_key_of_perm hvalues.symm hdistinct, Catalog.lookup, Catalog.get?]
  congr 1
  funext d
  exact decide_eq_decide.mpr (@Tag.text_inj d.tag ⟨name⟩)

theorem descriptors_build : c.registrar.build.descriptors = c.descriptors := by
  have hfound : ∀ d ∈ c.definitions, c.registrar.build.get? d.tag = some d := by
    intro d hd
    rw [get?_build]
    exact find?_of_distinct c.distinct hd
  rw [Index.descriptors, descriptors]
  congr 1
  calc (c.definitions.map Definition.tag).filterMap c.registrar.build.get?
      = c.definitions.filterMap fun d => c.registrar.build.get? d.tag := List.filterMap_map
    _ = c.definitions.filterMap some := List.filterMap_congr hfound
    _ = c.definitions := List.filterMap_some

theorem answersAs_build : c.registrar.build.AnswersAs c where
  get? := c.get?_build
  lookup := c.lookup_build
  tags := rfl
  descriptors := c.descriptors_build
  size := by rw [Index.size, c.perm_build.length_eq, List.length_map, size]

theorem holds_build : c.registrar.build.Holds c.definitions where
  tags := rfl
  distinct := c.distinct
  get?_eq_some_iff t d := by rw [get?_build, get?, find?_key_eq_some_iff c.distinct]
  lookup_text t := by rw [lookup_build, get?_build, lookup]
  get?_other t ht := by
    rw [get?_build, get?, List.find?_eq_none]
    intro d hd htag
    exact ht (of_decide_eq_true htag ▸ List.mem_map_of_mem hd)
  descriptors := c.descriptors_build
  keys := by
    have hkeys := c.perm_build.map Prod.fst
    rw [List.map_map] at hkeys
    rw [Index.tags, Registrar.build, List.map_map]
    exact hkeys
  size := by
    rw [Index.size, c.perm_build.length_eq, List.length_map, Index.tags, Registrar.build,
      List.length_map, registrar]

end Catalog

namespace Registrar

/-- Registration, whatever calls were made before. A call succeeds for a metric whose tags are all
well-formed and whose own tag no earlier call that succeeded has used. A refused call leaves the
registrar as it was, and names the first faulty tag, or else the tag that is taken. What is built
holds the metrics of the calls that succeeded. Discovery fails with the answer of the first
contributor that fails; without one it gives what they have built, which for groups of metrics
answers as their catalog does. -/
theorem registration_atomic :
    (∀ calls d, ((after calls).register d).2 = .ok () ↔
      (∀ t ∈ d.names, t.WellFormed) ∧ ∀ a ∈ accepted empty calls, a.tag ≠ d.tag) ∧
    (∀ calls d e, ((after calls).register d).2 = .error e →
      after (calls ++ [d]) = after calls ∧ accepted empty (calls ++ [d]) = accepted empty calls ∧
      ((∃ t fault, d.FirstFault t fault ∧ e = .invalidTag t fault) ∨
        (∀ t ∈ d.names, t.WellFormed) ∧ (∃ a ∈ accepted empty calls, a.tag = d.tag) ∧
          e = .duplicateTag d.tag)) ∧
    (∀ calls, (after calls).build.Holds (accepted empty calls)) ∧
    (∀ cs e, discover cs = .error e ↔ ∃ before c later, cs = before ++ c :: later ∧
      AllSucceed empty before ∧ (c (empty.through before)).2 = .error e) ∧
    (∀ cs, AllSucceed empty cs → discover cs = .ok (empty.through cs).build) ∧
    (∀ groups, discover (groups.map registerEach) =
      (Catalog.ofGroups groups).map (·.registrar.build)) ∧
    ∀ c : Catalog, c.registrar.build.AnswersAs c := by
  refine ⟨?_, ?_, ?_, ?_, ?_, ?_, Catalog.answersAs_build⟩
  · intro calls d
    rw [after_eq, accepted_eq]
    exact register_ok_iff _ d
  · intro calls d e h
    obtain ⟨hsame, hwhy⟩ := register_refused (after_eq calls ▸ h)
    have hafter : after (calls ++ [d]) = after calls := by
      rw [after_concat, after_eq calls]
      exact hsame
    refine ⟨hafter, ?_, ?_⟩
    · rw [accepted_eq_entries, accepted_eq_entries, hafter]
    · rw [accepted_eq]
      exact hwhy
  · intro calls
    rw [after_eq, accepted_eq]
    exact Catalog.holds_build _
  · exact fun cs e => discoverFrom_error_iff
  · exact fun cs => discoverFrom_of_allSucceed
  · exact fun groups => discoverFrom_registrar groups .empty

end Registrar
end BenchMetrics
