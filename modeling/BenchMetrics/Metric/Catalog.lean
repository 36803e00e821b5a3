import BenchMetrics.Metric.Accumulator
/-! The catalog of metrics: each under its own tag, in the order of registration. -/
namespace BenchMetrics

/-- A metric as it is registered, with the accumulator that a run starts from. -/
structure Definition where
  descriptor : Descriptor
  fresh : Accumulator

def Definition.tag (d : Definition) : Tag := d.descriptor.tag

/-- The first faulty tag of a metric: its own, then those it requires. -/
def Definition.tagError? (d : Definition) : Option MetricError :=
  (d.tag :: d.descriptor.required).findSome? fun t => t.fault?.map (MetricError.invalidTag t)

structure Catalog where
  definitions : List Definition
  distinct : (definitions.map Definition.tag).Nodup

namespace Catalog

def empty : Catalog := ⟨[], by simp⟩

def tags (c : Catalog) : List Tag := c.definitions.map Definition.tag

def descriptors (c : Catalog) : List Descriptor := c.definitions.map (·.descriptor)

def size (c : Catalog) : Nat := c.definitions.length

def get? (c : Catalog) (tag : Tag) : Option Definition :=
  c.definitions.find? fun d => d.tag = tag

def lookup (c : Catalog) (name : String) : Option Definition := c.get? ⟨name⟩

/-- Tags are checked before a tag that is taken is reported. -/
def register (c : Catalog) (d : Definition) : Except MetricError Catalog :=
  match d.tagError? with
  | some e => .error e
  | none =>
    if h : d.tag ∈ c.definitions.map Definition.tag then .error (.duplicateTag d.tag)
    else .ok ⟨c.definitions ++ [d], by
      rw [List.map_append, List.nodup_append]
      refine ⟨c.distinct, by simp, ?_⟩
      intro a ha b hb hab
      simp only [List.map_cons, List.map_nil, List.mem_singleton] at hb
      exact h (hb ▸ hab ▸ ha)⟩

def registerAll (c : Catalog) (ds : List Definition) : Except MetricError Catalog :=
  ds.foldlM register c

/-- The catalog of several groups of metrics, registered one after the other. -/
def ofGroups (groups : List (List Definition)) : Except MetricError Catalog :=
  groups.foldlM registerAll empty

end Catalog
end BenchMetrics
