import BenchMetrics.Metric.Catalog
import Mathlib.Data.List.Nodup

/-! Tags as names. A tag is its text, and the check of a tag accepts exactly the texts of one
shape; a metric is checked together with the tags that it requires. -/
namespace BenchMetrics

namespace Tag

theorem text_inj {s t : Tag} : s.text = t.text ↔ s = t := by
  cases s
  cases t
  simp

theorem nodup_texts {ts : List Tag} (hn : ts.Nodup) : (ts.map text).Nodup := by
  apply hn.map
  intro s t hst
  exact text_inj.mp hst

/-- A lower-case letter, and then any number of lower-case letters, digits and underscores. -/
def WellFormed (t : Tag) : Prop :=
  ∃ c cs, t.text.toList = c :: cs ∧ ('a' ≤ c ∧ c ≤ 'z') ∧
    ∀ x ∈ cs, ('a' ≤ x ∧ x ≤ 'z') ∨ ('0' ≤ x ∧ x ≤ '9') ∨ x = '_'

theorem isLower_iff (c : Char) : c.isLower ↔ 'a' ≤ c ∧ c ≤ 'z' := by
  have hrange : c.isLower = (decide ('a' ≤ c) && decide (c ≤ 'z')) := rfl
  rw [hrange, Bool.and_eq_true, decide_eq_true_eq, decide_eq_true_eq]

theorem allows_iff (c : Char) :
    allows c ↔ ('a' ≤ c ∧ c ≤ 'z') ∨ ('0' ≤ c ∧ c ≤ '9') ∨ c = '_' := by
  have hdigit : c.isDigit = (decide ('0' ≤ c) && decide (c ≤ '9')) := rfl
  rw [allows, Bool.or_eq_true, Bool.or_eq_true, isLower_iff, hdigit, Bool.and_eq_true,
    decide_eq_true_eq, decide_eq_true_eq, beq_iff_eq, or_assoc]

theorem wellFormed_iff {t : Tag} {c : Char} {cs : List Char} (h : t.text.toList = c :: cs) :
    t.WellFormed ↔ c.isLower ∧ ∀ x ∈ cs, allows x := by
  simp only [isLower_iff, allows_iff]
  constructor
  · rintro ⟨c', cs', heq, hlower, hrest⟩
    obtain ⟨rfl, rfl⟩ := List.cons.inj (h.symm.trans heq)
    exact ⟨hlower, hrest⟩
  · rintro ⟨hlower, hrest⟩
    exact ⟨c, cs, h, hlower, hrest⟩

/-- The check of a tag refuses all that is not well-formed, and nothing else. -/
theorem fault?_eq_none_iff (t : Tag) : t.fault? = none ↔ t.WellFormed := by
  rw [fault?]
  cases htext : t.text.toList with
  | nil =>
    refine iff_of_false (by simp) ?_
    rintro ⟨c, cs, heq, _⟩
    rw [htext] at heq
    cases heq
  | cons c cs =>
    rw [wellFormed_iff htext]
    by_cases hlower : c.isLower
    · -- what may come first may also come later
      have hfirst : allows c := by simp [allows, hlower]
      simp [hlower, hfirst]
    · simp [hlower]

end Tag

namespace Definition

/-- All tags of a metric, its own in front of those it requires. -/
def names (d : Definition) : List Tag := d.tag :: d.descriptor.required

/-- The first tag of a metric that is refused, and why. -/
def FirstFault (d : Definition) (t : Tag) (fault : TagFault) : Prop :=
  ∃ before later, d.names = before ++ t :: later ∧ (∀ s ∈ before, s.WellFormed) ∧
    t.fault? = some fault

theorem tagError?_eq_none_iff (d : Definition) :
    d.tagError? = none ↔ ∀ t ∈ d.names, t.WellFormed := by
  rw [tagError?, List.findSome?_eq_none_iff]
  simp only [Option.map_eq_none_iff, Tag.fault?_eq_none_iff]
  rfl

theorem tagError?_eq_some_iff (d : Definition) (e : MetricError) :
    d.tagError? = some e ↔ ∃ t fault, d.FirstFault t fault ∧ e = .invalidTag t fault := by
  rw [tagError?, List.findSome?_eq_some_iff]
  constructor
  · rintro ⟨before, t, later, hnames, ht, hbefore⟩
    obtain ⟨fault, hfault, rfl⟩ := Option.map_eq_some_iff.mp ht
    refine ⟨t, fault, ⟨before, later, hnames, fun s hs => ?_, hfault⟩, rfl⟩
    exact (s.fault?_eq_none_iff).mp (Option.map_eq_none_iff.mp (hbefore s hs))
  · rintro ⟨t, fault, ⟨before, later, hnames, hbefore, hfault⟩, rfl⟩
    refine ⟨before, t, later, hnames, by rw [hfault]; rfl, fun s hs => ?_⟩
    rw [(s.fault?_eq_none_iff).mpr (hbefore s hs)]
    rfl

end Definition
end BenchMetrics
