import BenchMetrics.Metric.Catalog
/-! The order in which selected metrics are evaluated, everything that a metric requires before
it. The metrics a selection needs are collected breadth first; then those that wait for
nothing are placed one after the other, each freeing the ones that waited for it last. -/
namespace BenchMetrics.EvaluationOrder

/-- The descriptors of the tags that are not `seen` yet, each once, and what has been seen
then. -/
def discover (c : Catalog) (onMissing : Tag → MetricError) :
    List Tag → List Tag → Except MetricError (List Descriptor × List Tag)
  | seen, [] => .ok ([], seen)
  | seen, t :: ts =>
    match c.get? t with
    | none => .error (onMissing t)
    | some d =>
      if t ∈ seen then discover c onMissing seen ts
      else do
        let (ds, seen) ← discover c onMissing (seen ++ [t]) ts
        .ok (d.descriptor :: ds, seen)

/-- Follows the requirements of the pending metrics. Every round takes one metric, and no
metric comes twice, so the size of the catalog is fuel enough. -/
def close (c : Catalog) : Nat → List Tag → List Descriptor → Except MetricError (List Descriptor)
  | _, _, [] => .ok []
  | 0, _, _ :: _ => .ok []
  | fuel + 1, seen, d :: pending => do
    let (found, seen) ← discover c (.unknownDependency d.tag) seen d.required
    let rest ← close c fuel seen (pending ++ found)
    .ok (d :: rest)

/-- The selected metrics and all that they require, in the order of discovery. -/
def collect (c : Catalog) (selection : List Tag) : Except MetricError (List Descriptor) := do
  let (found, seen) ← discover c (fun t => .unknownMetric t.text) [] selection
  close c c.size seen found

/-- A metric that cannot be placed yet, with the number of entries of its requirements whose
metrics are not placed. -/
structure Blocked where
  descriptor : Descriptor
  waiting : Nat
  deriving DecidableEq

/-- The state of placing metrics: what is placed, what may come next, and what waits. -/
structure Placing where
  placed : List Descriptor
  ready : List Descriptor
  blocked : List Blocked

def Placing.start (nodes : List Descriptor) : Placing where
  placed := []
  ready := nodes.filter (·.required.isEmpty)
  blocked := (nodes.filter (!·.required.isEmpty)).map fun d => ⟨d, d.required.length⟩

/-- What a blocked metric waits for after `tag` has been placed. -/
def Blocked.release (b : Blocked) (tag : Tag) : Blocked :=
  { b with waiting := b.waiting - b.descriptor.required.count tag }

/-- Places the first ready metric. Those that wait for nothing any more become ready. -/
def Placing.step (p : Placing) : Placing :=
  match p.ready with
  | [] => p
  | d :: ready =>
    let blocked := p.blocked.map (·.release d.tag)
    { placed := p.placed ++ [d]
      ready := ready ++ (blocked.filter (·.waiting == 0)).map (·.descriptor)
      blocked := blocked.filter (·.waiting != 0) }

def Placing.run : Nat → Placing → Placing
  | 0, p => p
  | n + 1, p => Placing.run n p.step

/-- Walks from a blocked metric to the first blocked one that it requires, until a tag comes
again; the walk from that tag on is a cycle. -/
def walk (blocked : List Descriptor) : Nat → List Tag → Tag → List Tag
  | 0, path, _ => path
  | fuel + 1, path, current =>
    if current ∈ path then path.dropWhile (· ≠ current) ++ [current]
    else
      let next := (blocked.find? (·.tag = current)).bind fun d =>
        d.required.find? fun t => t ∈ blocked.map (·.tag)
      match next with
      | some t => walk blocked fuel (path ++ [current]) t
      | none => path ++ [current]

def cycle (blocked : List Descriptor) : List Tag :=
  match blocked with
  | [] => []
  | d :: _ => walk blocked (blocked.length + 1) [] d.tag

/-- Puts metrics after all that they require. -/
def arrange (nodes : List Descriptor) : Except MetricError (List Descriptor) :=
  let p := (Placing.start nodes).run nodes.length
  if p.blocked.isEmpty then .ok p.placed
  else .error (.dependencyCycle (cycle (p.blocked.map (·.descriptor))))

/-- The evaluation order of a selection. -/
def resolve (c : Catalog) (selection : List Tag) : Except MetricError (List Descriptor) := do
  let nodes ← collect c selection
  arrange nodes

/-- The place of a metric in an order. -/
def position? (order : List Descriptor) (tag : Tag) : Option Nat :=
  order.findIdx? (·.tag = tag)

end BenchMetrics.EvaluationOrder
