import BenchMetrics.Metric.Value
import BenchMetrics.Request.Record
/-! Accumulators: a metric during a run. Each is fed one record at a time, or once without a
record after all of them, and sees the metrics that are evaluated before it. -/
namespace BenchMetrics

/-- What a metric shows to those evaluated after it. -/
structure Exposed where
  tag : Tag
  value : Value
  /-- The exact number, for metrics that keep a timestamp. -/
  timestamp : Option Int64

/-- The metrics that are evaluated before the current one. -/
abbrev View := List Exposed

namespace View

def find? (v : View) (tag : Tag) : Option Exposed := List.find? (fun e => e.tag = tag) v

def value? (v : View) (tag : Tag) : Option Value := (v.find? tag).map (·.value)

/-- Takes what `read` finds of a dependency, on behalf of the metric `owner`. -/
def demand {α : Type} (v : View) (owner dependency : Tag) (read : Exposed → Option α) :
    Except MetricError α :=
  match (v.find? dependency).bind read with
  | some a => .ok a
  | none => .error (.missingValue owner dependency)

def scalar (v : View) (owner dependency : Tag) : Except MetricError Float :=
  v.demand owner dependency (·.value.scalar?)

def timestamp (v : View) (owner dependency : Tag) : Except MetricError Int64 :=
  v.demand owner dependency (·.timestamp)

def series (v : View) (owner dependency : Tag) : Except MetricError (Array (Option Sample)) :=
  v.demand owner dependency (·.value.series?)

end View

/-- How a metric accumulates, with what it holds so far. -/
inductive Cell where
  /-- A slot for every record. -/
  | series (compute : Record → Except Fault Float) (slots : Array (Option Sample))
  /-- One number, combined with that of every record. -/
  | fold (compute : Record → Except Fault Float) (combine : Float → Float → Float)
      (current : Option Float)
  /-- One timestamp, combined exactly. -/
  | timestamp (compute : Record → Except Fault Int64) (combine : Int64 → Int64 → Int64)
      (current : Option Int64)
  /-- One number from the other metrics, after all records. -/
  | derived (formula : View → Except MetricError Float) (current : Option Float)
  /-- A slot for every record: a billion over the slot of `source` for that record. `cursor`
  counts the records offered; `label` names the divisor. -/
  | rate (source : Tag) (label : String) (cursor : Nat) (slots : Array (Option Sample))

structure Accumulator where
  descriptor : Descriptor
  cell : Cell

/-- Nanoseconds in a second. -/
def nanosPerSecond : Float := 1e9

namespace Cell

def value : Cell → Value
  | .series _ slots => .series slots
  | .fold _ _ current => current.elim .unset .scalar
  | .timestamp _ _ current => current.elim .unset fun ns => .scalar (nanosToFloat ns)
  | .derived _ current => current.elim .unset .scalar
  | .rate _ _ _ slots => .series slots

def timestamp? : Cell → Option Int64
  | .timestamp _ _ current => current
  | _ => none

/-- The new value of a fold. -/
def combined {α : Type} (combine : α → α → α) (current : Option α) (new : α) : α :=
  match current with
  | some old => combine old new
  | none => new

/-- The rate for the record at a position of the source. -/
def rateAt (source : Tag) (label : String) (slots : Array (Option Sample)) (position : Nat) :
    Except Fault Float :=
  match slots[position]?.join with
  | none => .error (.missingDependency source)
  | some x =>
    if x.toFloat ≤ 0.0 then .error (.zeroValue label) else .ok (nanosPerSecond / x.toFloat)

/-- Feeds a record, or none in the pass after all records. The cell comes back with the error,
if there is one: a failed update leaves the held value as it was. -/
def update (owner : Tag) (c : Cell) (record : Option Record) (view : View) :
    Cell × Except MetricError Unit :=
  match c, record with
  | .series compute slots, some r =>
    match compute r with
    | .ok x => (.series compute (slots.push (some (.of x))), .ok ())
    | .error fault => (.series compute slots, .error (.rejected owner fault))
  | .fold compute combine current, some r =>
    match compute r with
    | .ok x => (.fold compute combine (some (combined combine current x)), .ok ())
    | .error fault => (.fold compute combine current, .error (.rejected owner fault))
  | .timestamp compute combine current, some r =>
    match compute r with
    | .ok ns => (.timestamp compute combine (some (combined combine current ns)), .ok ())
    | .error fault => (.timestamp compute combine current, .error (.rejected owner fault))
  | .derived formula _, none =>
    match formula view with
    | .ok x => (.derived formula (some x), .ok ())
    | .error e => (c, .error e)
  | .derived _ _, some _ => (c, .error (.wrongPass owner .recordGiven))
  | .rate source label cursor slots, some _ =>
    match view.series owner source with
    | .error e => (.rate source label (cursor + 1) slots, .error e)
    | .ok others =>
      match rateAt source label others cursor with
      | .error fault => (.rate source label (cursor + 1) slots, .error (.rejected owner fault))
      | .ok x => (.rate source label (cursor + 1) (slots.push (some (.of x))), .ok ())
  | c, none => (c, .error (.wrongPass owner .recordMissing))

/-- Keeps the slots of a series in step with the records when one was rejected. -/
def skip : Cell → Cell
  | .series compute slots => .series compute (slots.push none)
  | .rate source label cursor slots => .rate source label cursor (slots.push none)
  | c => c

end Cell

namespace Accumulator

def tag (a : Accumulator) : Tag := a.descriptor.tag

def value (a : Accumulator) : Value := a.cell.value

def timestamp? (a : Accumulator) : Option Int64 := a.cell.timestamp?

def exposed (a : Accumulator) : Exposed := ⟨a.tag, a.value, a.timestamp?⟩

def update (a : Accumulator) (record : Option Record) (view : View) :
    Accumulator × Except MetricError Unit :=
  let (cell, result) := a.cell.update a.tag record view
  ({ a with cell := cell }, result)

def skip (a : Accumulator) : Accumulator := { a with cell := a.cell.skip }

/-- An accumulator that holds nothing yet. -/
def series (d : Descriptor) (compute : Record → Except Fault Float) : Accumulator :=
  ⟨d, .series compute #[]⟩

def fold (d : Descriptor) (compute : Record → Except Fault Float)
    (combine : Float → Float → Float) : Accumulator :=
  ⟨d, .fold compute combine none⟩

def timestamps (d : Descriptor) (compute : Record → Except Fault Int64)
    (combine : Int64 → Int64 → Int64) : Accumulator :=
  ⟨d, .timestamp compute combine none⟩

def derived (d : Descriptor) (formula : View → Except MetricError Float) : Accumulator :=
  ⟨d, .derived formula none⟩

def rate (d : Descriptor) (source : Tag) (label : String) : Accumulator :=
  ⟨d, .rate source label 0 #[]⟩

end Accumulator
end BenchMetrics
