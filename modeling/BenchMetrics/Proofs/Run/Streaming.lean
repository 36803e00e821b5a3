import BenchMetrics.Proofs.Run.Course

/-! Runs without streams. Such a run leaves out the selected metrics that need streams, and only
then collects what the others require; so a metric that needs streams is evaluated exactly if one
that is kept requires it, directly or through others. -/
namespace BenchMetrics
open EvaluationOrder Relation

/-- The metric under the tag needs streams. -/
def Catalog.StreamingOnly (c : Catalog) (t : Tag) : Prop :=
  ∃ d, c.get? t = some d ∧ d.descriptor.streamingOnly

/-- A metric that does without streams requires none that needs them. -/
def Catalog.StreamClosed (c : Catalog) : Prop :=
  ∀ a b, Requires c a b → c.StreamingOnly b → c.StreamingOnly a

theorem Catalog.StreamClosed.of_required {c : Catalog} (hc : c.StreamClosed) {a b : Tag}
    (h : ReflTransGen (Requires c) a b) (hb : c.StreamingOnly b) : c.StreamingOnly a := by
  -- backwards along the requirements, everything needs streams
  induction h using ReflTransGen.head_induction_on with
  | refl => exact hb
  | head hac _ ih => exact hc _ _ hac ih

theorem streamingOnly_of_registered {c : Catalog} {d : Descriptor} (h : Registered c d) :
    c.StreamingOnly d.tag ↔ d.streamingOnly = true := by
  obtain ⟨definition, hget, rfl⟩ := h
  constructor
  · rintro ⟨definition', hget', hstreams⟩
    rw [hget, Option.some.injEq] at hget'
    rw [hget']
    exact hstreams
  · exact fun hstreams => ⟨definition, hget, hstreams⟩

namespace Engine

variable {c : Catalog} {selection : List Tag} {settings : Settings} {e : Engine}

theorem kept_iff (hs : settings.streaming = false) (t : Tag) :
    kept c settings t = true ↔ ¬ c.StreamingOnly t := by
  rw [kept, hs, Bool.false_or, Bool.not_eq_true', Option.any_eq_false]
  constructor
  · rintro hnone ⟨definition, hget, hstreams⟩
    rw [hnone definition hget] at hstreams
    cases hstreams
  · intro hnot definition hget
    by_contra hstreams
    rw [Bool.not_eq_false] at hstreams
    exact hnot ⟨definition, hget, hstreams⟩

/-- What a run without streams evaluates: what is required by the selected metrics that do without
them. -/
theorem mem_order_iff (he : withSelection c selection settings = .ok e)
    (hs : settings.streaming = false) (t : Tag) : t ∈ tagsOf e.order ↔
      ∃ s ∈ selection, ¬ c.StreamingOnly s ∧ ReflTransGen (Requires c) s t := by
  rw [(withSelection_ok he).1.mem_iff]
  constructor
  · rintro ⟨s, hmem, hst⟩
    obtain ⟨hselected, hkept⟩ := List.mem_filter.mp hmem
    exact ⟨s, hselected, (kept_iff hs s).mp hkept, hst⟩
  · rintro ⟨s, hselected, hnot, hst⟩
    exact ⟨s, List.mem_filter.mpr ⟨hselected, (kept_iff hs s).mpr hnot⟩, hst⟩

/-- A metric that needs streams is not there because it is selected. -/
theorem required_of_streamingOnly (he : withSelection c selection settings = .ok e)
    (hs : settings.streaming = false) {d : Descriptor} (hd : d ∈ e.order)
    (hstreams : d.streamingOnly = true) :
    ∃ s ∈ selection, ¬ c.StreamingOnly s ∧ TransGen (Requires c) s d.tag := by
  have hneeds : c.StreamingOnly d.tag :=
    (streamingOnly_of_registered ((withSelection_ok he).1.registered d hd)).mpr hstreams
  obtain ⟨s, hselected, hnot, hst⟩ := (mem_order_iff he hs d.tag).mp (List.mem_map_of_mem hd)
  refine ⟨s, hselected, hnot, ?_⟩
  rcases reflTransGen_iff_eq_or_transGen.mp hst with heq | htrans
  · rw [heq] at hneeds
    exact absurd hneeds hnot
  · exact htrans

/-- In a closed catalog nothing that needs streams is required by what does without. -/
theorem streamless_of_closed (hc : c.StreamClosed)
    (he : withSelection c selection settings = .ok e) (hs : settings.streaming = false) :
    ∀ d ∈ e.order, d.streamingOnly = false := by
  intro d hd
  by_contra hstreams
  rw [Bool.not_eq_false] at hstreams
  have hneeds : c.StreamingOnly d.tag :=
    (streamingOnly_of_registered ((withSelection_ok he).1.registered d hd)).mpr hstreams
  obtain ⟨s, _, hnot, hst⟩ := (mem_order_iff he hs d.tag).mp (List.mem_map_of_mem hd)
  exact hnot (hc.of_required hst hneeds)

/-- A run without streams evaluates a metric that needs them exactly if a selected metric that does
without requires it, directly or through others. In a catalog where no metric that does without
streams requires one that needs them, none is evaluated, whatever is selected. -/
theorem streamless_iff (he : withSelection c selection settings = .ok e)
    (hs : settings.streaming = false) :
    (∀ d ∈ e.order, d.streamingOnly = true →
      ∃ s ∈ selection, ¬ c.StreamingOnly s ∧ TransGen (Requires c) s d.tag) ∧
    ((∀ d ∈ e.order, d.streamingOnly = false) ↔
      ∀ s ∈ selection, ¬ c.StreamingOnly s →
        ∀ t, TransGen (Requires c) s t → ¬ c.StreamingOnly t) ∧
    (c.StreamClosed → ∀ d ∈ e.order, d.streamingOnly = false) := by
  refine ⟨fun d hd => required_of_streamingOnly he hs hd, ⟨?_, ?_⟩,
    fun hc => streamless_of_closed hc he hs⟩
  · intro hall s hselected hnot t hst hneeds
    -- what is required is in the order, so it would have to do without streams
    have hmem : t ∈ tagsOf e.order :=
      (mem_order_iff he hs t).mpr ⟨s, hselected, hnot, hst.to_reflTransGen⟩
    obtain ⟨d, hd, rfl⟩ := List.mem_map.mp hmem
    have hregistered := (withSelection_ok he).1.registered d hd
    have hstreams := (streamingOnly_of_registered hregistered).mp hneeds
    rw [hall d hd] at hstreams
    cases hstreams
  · intro hnone d hd
    by_contra hstreams
    rw [Bool.not_eq_false] at hstreams
    obtain ⟨s, hselected, hnot, hst⟩ := required_of_streamingOnly he hs hd hstreams
    have hregistered := (withSelection_ok he).1.registered d hd
    exact hnone s hselected hnot d.tag hst ((streamingOnly_of_registered hregistered).mpr hstreams)

end Engine

namespace Standard

/-- The one standard metric that requires one that needs streams needs them itself. -/
theorem catalog_streamClosed : catalog.StreamClosed := by
  rintro a b ⟨definition, hget, hb⟩ ⟨required, hrequired, hstreams⟩
  refine ⟨definition, hget, ?_⟩
  have hall : ∀ d ∈ catalog.definitions, ∀ t ∈ d.descriptor.required,
      (catalog.get? t).any (·.descriptor.streamingOnly) → d.descriptor.streamingOnly := by
    decide
  apply hall definition (mem_of_get? hget).1 b hb
  rw [hrequired]
  exact hstreams

/-- Over the standard metrics, a run without streams evaluates none that needs them. -/
theorem streamless {selection : List Tag} {settings : Settings} {e : Engine}
    (he : Engine.withSelection catalog selection settings = .ok e)
    (hs : settings.streaming = false) : ∀ d ∈ e.order, d.streamingOnly = false :=
  Engine.streamless_of_closed catalog_streamClosed he hs

end Standard

namespace Engine
open Standard

/-- A count that requires a series which needs streams. -/
def leaning : List Definition := [
  define (amountOf ⟨"gap"⟩ "gap" "things" .record false true []) (.series · fun _ => .ok 1.0),
  define (amountOf ⟨"requests"⟩ "requests" "things" .record false false [⟨"gap"⟩])
    (.series · fun _ => .ok 1.0)]

theorem streamless_iff_requests :
    ∃ e, withSelection catalog catalog.tags { Settings.default with streaming := false } = .ok e ∧
      ∀ d ∈ e.order, d.streamingOnly = false := by
  refine ⟨_, rfl, ?_⟩
  exact (@streamless_iff catalog catalog.tags { Settings.default with streaming := false } _ rfl
    rfl).2.2 catalog_streamClosed

/-- The count is selected and does without streams, so that the series it requires is evaluated in
a run without them. -/
theorem leaning_streams :
    ∃ c e, Catalog.ofGroups [leaning] = .ok c ∧
      withSelection c [⟨"requests"⟩] { Settings.default with streaming := false } = .ok e ∧
      ∃ d ∈ e.order, d.streamingOnly = true :=
  ⟨_, _, rfl, rfl, _, .head _, rfl⟩

end Engine
end BenchMetrics
