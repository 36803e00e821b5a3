import BenchMetrics.Dict
import BenchMetrics.Metric.Catalog
/-! Registration one call after the other. A registrar holds what was registered and, apart from
it, the tags that are taken; the index made of it holds the metrics by tag and, apart from them,
the order of the tags. -/
namespace BenchMetrics

structure Registrar where
  entries : List Definition
  taken : List Tag

/-- The metrics under the texts of their tags, and the tags in the order of registration. -/
structure Index where
  definitions : Dict Definition
  order : List Tag

namespace Registrar

def empty : Registrar := ⟨[], []⟩

/-- Puts a tag among those taken, and tells whether it is new. -/
def take (taken : List Tag) (t : Tag) : List Tag × Bool :=
  if t ∈ taken then (taken, false) else (taken ++ [t], true)

/-- The registrar after a call, and what the call answers. A tag is taken after all tags have been
checked, and the entry follows if it was free. -/
def register (r : Registrar) (d : Definition) : Registrar × Except MetricError Unit :=
  match d.tagError? with
  | some e => (r, .error e)
  | none =>
    match take r.taken d.tag with
    | (taken, true) => (⟨r.entries ++ [d], taken⟩, .ok ())
    | (taken, false) => ({ r with taken := taken }, .error (.duplicateTag d.tag))

/-- The registrar after calls of which some may be refused. -/
def after (calls : List Definition) : Registrar :=
  calls.foldl (fun r d => (r.register d).1) empty

/-- The calls that are not refused. -/
def accepted : Registrar → List Definition → List Definition
  | _, [] => []
  | r, d :: calls =>
    match r.register d with
    | (r, .ok ()) => d :: accepted r calls
    | (r, .error _) => accepted r calls

def build (r : Registrar) : Index where
  definitions := .ofList (r.entries.map fun d => (d.tag.text, d))
  order := r.entries.map Definition.tag

/-- Whatever is done to a registrar when metrics are discovered, with its answer. -/
abbrev Contributor := Registrar → Registrar × Except MetricError Unit

/-- Registers metrics up to the first that is refused. -/
def registerEach : List Definition → Contributor
  | [], r => (r, .ok ())
  | d :: ds, r =>
    match r.register d with
    | (r, .ok ()) => registerEach ds r
    | (r, .error e) => (r, .error e)

/-- The registrar after several contributors. -/
def through (r : Registrar) (cs : List Contributor) : Registrar := cs.foldl (fun r c => (c r).1) r

/-- The index made by contributors in order, up to the first that fails. -/
def discoverFrom : Registrar → List Contributor → Except MetricError Index
  | r, [] => .ok r.build
  | r, c :: cs =>
    match c r with
    | (r, .ok ()) => discoverFrom r cs
    | (_, .error e) => .error e

def discover (cs : List Contributor) : Except MetricError Index := discoverFrom empty cs

end Registrar

namespace Index

def get? (i : Index) (t : Tag) : Option Definition := i.definitions.get? t.text

/-- Looks through all metrics. -/
def lookup (i : Index) (name : String) : Option Definition :=
  i.definitions.values.find? fun d => d.tag.text = name

def tags (i : Index) : List Tag := i.order

def descriptors (i : Index) : List Descriptor := (i.order.filterMap i.get?).map (·.descriptor)

def size (i : Index) : Nat := i.definitions.entries.length

end Index
end BenchMetrics
