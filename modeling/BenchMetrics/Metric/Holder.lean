import BenchMetrics.Metric.Accumulator
/-! Accumulators as they are kept from call to call: each stores the value that it shows, and a
timestamp is stored twice, exactly and as the number that is shown. -/
namespace BenchMetrics

inductive Holder where
  | series (compute : Record → Except Fault Float) (value : Value)
  | fold (compute : Record → Except Fault Float) (combine : Float → Float → Float) (value : Value)
  | timestamp (compute : Record → Except Fault Int64) (combine : Int64 → Int64 → Int64)
      (current : Option Int64) (value : Value)
  | derived (formula : View → Except MetricError Float) (value : Value)
  | rate (source : Tag) (label : String) (cursor : Nat) (value : Value)

namespace Holder

def value : Holder → Value
  | .series _ value | .fold _ _ value | .timestamp _ _ _ value | .derived _ value
  | .rate _ _ _ value => value

def timestamp? : Holder → Option Int64
  | .timestamp _ _ current _ => current
  | _ => none

def expectRecord (owner : Tag) (record : Option Record) : Except MetricError Record :=
  match record with
  | some r => .ok r
  | none => .error (.wrongPass owner .recordMissing)

/-- What is computed from the record of a call, if there is one. -/
def taken {α : Type} (owner : Tag) (compute : Record → Except Fault α) (record : Option Record) :
    Except MetricError α := do
  let r ← expectRecord owner record
  (compute r).mapError (.rejected owner)

/-- A scalar combined with a new number; whatever else was held is replaced. -/
def folded (combine : Float → Float → Float) (held : Value) (x : Float) : Value :=
  match held with
  | .scalar current => .scalar (combine current x)
  | _ => .scalar x

/-- The formula is asked once the call is known to come without a record. -/
def derive (owner : Tag) (formula : View → Except MetricError Float) (record : Option Record)
    (view : View) : Except MetricError Float :=
  if record.isSome then .error (.wrongPass owner .recordGiven) else formula view

/-- The rate of a record, with the cursor after the call: it moves on with every record. -/
def rateTaken (owner source : Tag) (label : String) (cursor : Nat) (record : Option Record)
    (view : View) : Nat × Except MetricError Float :=
  match record with
  | none => (cursor, .error (.wrongPass owner .recordMissing))
  | some _ => (cursor + 1, do
    let others ← view.series owner source
    (Cell.rateAt source label others cursor).mapError (.rejected owner))

/-- Ends a call: the value is written behind everything that can fail. -/
def settle {α : Type} (h : Holder) (result : Except MetricError α) (next : α → Holder) :
    Holder × Except MetricError Unit :=
  match result with
  | .ok x => (next x, .ok ())
  | .error e => (h, .error e)

def update (owner : Tag) (h : Holder) (record : Option Record) (view : View) :
    Holder × Except MetricError Unit :=
  match h with
  | .series compute value =>
    settle h (taken owner compute record) fun x => .series compute (value.push (some (.of x)))
  | .fold compute combine value =>
    settle h (taken owner compute record) fun x => .fold compute combine (folded combine value x)
  | .timestamp compute combine current _ =>
    settle h (taken owner compute record) fun ns =>
      .timestamp compute combine (some (Cell.combined combine current ns))
        (.scalar (nanosToFloat (Cell.combined combine current ns)))
  | .derived formula _ =>
    settle h (derive owner formula record view) fun x => .derived formula (.scalar x)
  | .rate source label cursor value =>
    let (cursor, result) := rateTaken owner source label cursor record view
    settle (.rate source label cursor value) result fun x =>
      .rate source label cursor (value.push (some (.of x)))

def skip : Holder → Holder
  | .series compute value => .series compute (value.push none)
  | .rate source label cursor value => .rate source label cursor (value.push none)
  | h => h

end Holder

/-- A cell with its value stored beside it. -/
def Cell.held (c : Cell) : Holder :=
  match c with
  | .series compute _ => .series compute c.value
  | .fold compute combine _ => .fold compute combine c.value
  | .timestamp compute combine current => .timestamp compute combine current c.value
  | .derived formula _ => .derived formula c.value
  | .rate source label cursor _ => .rate source label cursor c.value

end BenchMetrics
