import BenchMetrics.Metric.EvaluationOrder
import BenchMetrics.Settings.Basic
/-! A run of metrics over records. A record that failed is counted by its failure, one that is
not usable is counted and dropped, and any other is fed to the per-record metrics in
evaluation order. A metric that rejects a record takes an empty slot for it. -/
namespace BenchMetrics

structure Engine where
  settings : Settings
  order : List Descriptor
  /-- In evaluation order. -/
  metrics : List Accumulator
  /-- How often each metric rejected a record or had no value, under its tag. -/
  rejections : Dict Nat
  failures : FailureTally
  processed : Nat
  failed : Nat
  unusable : Nat

namespace Engine

/-- A non-streaming run leaves out the metrics that need streams. -/
def kept (c : Catalog) (settings : Settings) (tag : Tag) : Bool :=
  settings.streaming || !(c.get? tag).any (·.descriptor.streamingOnly)

/-- The accumulators that a run starts from. -/
def freshMetrics (c : Catalog) (order : List Descriptor) :
    Except MetricError (List Accumulator) :=
  order.mapM fun d => match c.get? d.tag with
    | some definition => .ok definition.fresh
    | none => .error (.unknownMetric d.tag.text)

/-- An engine for the selected metrics and those they require. -/
def withSelection (c : Catalog) (selection : List Tag) (settings : Settings) :
    Except MetricError Engine := do
  let chosen := selection.filter (kept c settings)
  let dropped := selection.filter (!kept c settings ·)
  if chosen.isEmpty && !dropped.isEmpty then .error (.nothingSelected dropped)
  else
    let order ← EvaluationOrder.resolve c chosen
    let metrics ← freshMetrics c order
    .ok ⟨settings, order, metrics, .empty, .empty, 0, 0, 0⟩

/-- The tags that the settings select. -/
def selected (c : Catalog) (settings : Settings) : Except MetricError (List Tag) :=
  match settings.selection with
  | none => .ok c.tags
  | some names => names.mapM fun name => match c.lookup name with
    | some d => .ok d.tag
    | none => .error (.unknownMetric name)

def new (c : Catalog) (settings : Settings) : Except MetricError Engine := do
  let selection ← selected c settings
  withSelection c selection settings

def rejectionsOf (e : Engine) (tag : Tag) : Nat := (e.rejections.get? tag.text).getD 0

/-- One more rejection by a metric. -/
def tally (rejections : Dict Nat) (tag : Tag) : Dict Nat :=
  rejections.modify tag.text 0 (· + 1)

/-- What the metrics look like after a pass, with the tags that rejected and the error that
stopped the pass. -/
structure Pass where
  metrics : List Accumulator
  rejected : List Tag
  stopped : Option MetricError

/-- Puts a metric that is done before the rest of a pass. -/
def Pass.after (p : Pass) (a : Accumulator) : Pass := { p with metrics := a :: p.metrics }

/-- One record through the metrics that remain, those before them being shown by `view`. -/
def feedFrom (policy : RejectionPolicy) (r : Record) : View → List Accumulator → Pass
  | _, [] => ⟨[], [], none⟩
  | view, a :: rest =>
    if a.descriptor.stage.takesRecords then
      match a.update (some r) view with
      | (b, .ok ()) => (feedFrom policy r (view ++ [b.exposed]) rest).after b
      | (b, .error e) =>
        if e.isFatal then ⟨b :: rest, [], some e⟩
        else if policy = .abort then ⟨b.skip :: rest, [a.tag], some e⟩
        else
          let p := feedFrom policy r (view ++ [b.skip.exposed]) rest
          { p.after b.skip with rejected := a.tag :: p.rejected }
    else (feedFrom policy r (view ++ [a.exposed]) rest).after a

/-- The class that a record falls in. -/
inductive RecordClass where
  | failed (failure : Failure)
  | unusable
  | fed
  deriving DecidableEq

def classify (r : Record) : RecordClass :=
  match r.failure with
  | some f => .failed f
  | none => if r.isUsable then .fed else .unusable

/-- Takes one record. The engine goes on after an error. -/
def process (e : Engine) (r : Record) : Engine × Except MetricError Unit :=
  let e := { e with processed := e.processed + 1 }
  match classify r with
  | .failed f => ({ e with failures := e.failures.record f, failed := e.failed + 1 }, .ok ())
  | .unusable => ({ e with unusable := e.unusable + 1 }, .ok ())
  | .fed =>
    let p := feedFrom e.settings.policy r [] e.metrics
    ({ e with metrics := p.metrics, rejections := p.rejected.foldl tally e.rejections },
      match p.stopped with
      | some err => .error err
      | none => .ok ())

/-- Takes records until one is refused. -/
def processAll (e : Engine) : List Record → Engine × Except MetricError Unit
  | [] => (e, .ok ())
  | r :: rs => match e.process r with
    | (e, .ok ()) => e.processAll rs
    | (e, .error err) => (e, .error err)

/-- The pass over the summary metrics after all records. -/
def summarizeFrom : View → List Accumulator → Pass
  | _, [] => ⟨[], [], none⟩
  | view, a :: rest =>
    if a.descriptor.stage = .summary then
      match a.update none view with
      | (b, .ok ()) => (summarizeFrom (view ++ [b.exposed]) rest).after b
      | (b, .error e) =>
        if e.isFatal then ⟨b :: rest, [], some e⟩
        else
          let p := summarizeFrom (view ++ [b.exposed]) rest
          { p.after b with rejected := a.tag :: p.rejected }
    else (summarizeFrom (view ++ [a.exposed]) rest).after a

end Engine
end BenchMetrics
