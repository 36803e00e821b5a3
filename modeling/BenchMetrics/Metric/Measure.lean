import BenchMetrics.Metric.Accumulator
/-! What the standard metrics compute: from one record, or from the metrics before them. The
checks come first; the earliest faulty extract decides, and there its range before its
order. -/
namespace BenchMetrics.Measure

/-- The dispatch, if it can be measured from. -/
def startNs (r : Record) : Except Fault Int64 :=
  if inOpenRange r.startNs then .ok r.startNs else .error (.missingTimestamp "request start")

/-- The first fault in a list of arrival times, the one before it being `previous`. -/
def arrivalFault? (previous : Option Int64) (index : Nat) : List Extract → Option Fault
  | [] => none
  | e :: es =>
    if !inOpenRange e.receivedNs then some (.missingTimestamp "response")
    else if previous.any fun p => e.receivedNs < p then some (.outOfOrder index)
    else arrivalFault? (some e.receivedNs) (index + 1) es

/-- At least `required` extracts, and at least one, that arrived in order. -/
def responses (r : Record) (required : Nat) : Except Fault (List Extract) :=
  let least := max required 1
  if r.extracts.length < least then .error (.tooFewResponses least r.extracts.length)
  else match arrivalFault? none 0 r.extracts with
    | some fault => .error fault
    | none => .ok r.extracts

/-- When the responses arrived. -/
def arrivals (r : Record) (required : Nat) : Except Fault (List Int64) :=
  (responses r required).map fun es => es.map (·.receivedNs)

/-- The output tokens, at least `required` of them. -/
def outputTokens (r : Record) (required : UInt64) : Except Fault UInt64 :=
  match r.outputTokens with
  | none => .error (.missingTokenCount "output")
  | some n => if n < required then .error (.tooFewTokens required n) else .ok n

def firstOf (ts : List Int64) : Int64 := ts.headD 0
def lastOf (ts : List Int64) : Int64 := ts.getLastD 0

/-- From the dispatch to the last response. -/
def requestLatency (r : Record) : Except Fault Float := do
  let start ← startNs r
  let ts ← arrivals r 1
  if lastOf ts < start then .error (.outOfOrder (ts.length - 1))
  else .ok (nanosToFloat (lastOf ts - start))

/-- From the dispatch to the first response. -/
def timeToFirst (r : Record) : Except Fault Float := do
  let start ← startNs r
  let ts ← arrivals r 1
  if firstOf ts < start then .error (.outOfOrder 0)
  else .ok (nanosToFloat (firstOf ts - start))

/-- Between the first two responses. -/
def timeToSecond (r : Record) : Except Fault Float := do
  let ts ← arrivals r 2
  .ok (nanosToFloat (firstOf (ts.drop 1) - firstOf ts))

/-- The time after the first response, spread over the tokens after the first. -/
def interTokenLatency (r : Record) : Except Fault Float := do
  let tokens ← outputTokens r 2
  let ts ← arrivals r 1
  .ok (nanosToFloat (lastOf ts - firstOf ts) / (tokens - 1).toFloat)

def inputLength (r : Record) : Except Fault Float :=
  match r.inputTokens with
  | some n => .ok n.toFloat
  | none => .error (.missingTokenCount "input")

def outputLength (r : Record) : Except Fault Float := do
  let n ← outputTokens r 1
  .ok n.toFloat

/-- Every record with responses in order counts once. -/
def requestCount (r : Record) : Except Fault Float := do
  let _ ← arrivals r 1
  .ok 1.0

/-- Only a request that was answered bounds the span of the run. -/
def requestStart (r : Record) : Except Fault Int64 := do
  let _ ← arrivals r 1
  startNs r

def lastResponse (r : Record) : Except Fault Int64 := do
  let ts ← arrivals r 1
  .ok (lastOf ts)

/-- Sums start from negative zero, which leaves every number as it is. -/
def sumFloats (xs : List Float) : Float := xs.foldl (· + ·) (-0.0)

/-- The sum of a series, empty slots aside. -/
def total (owner source : Tag) (view : View) : Except MetricError Float := do
  let slots ← view.series owner source
  .ok (sumFloats (slots.toList.filterMap (Option.map Sample.toFloat)))

/-- From the earliest of one timestamp to the latest of another. -/
def span (owner first last : Tag) (view : View) : Except MetricError Float := do
  let first ← view.timestamp owner first
  let last ← view.timestamp owner last
  if last < first then .error (.underivable owner (.reversedSpan first last))
  else .ok (nanosToFloat (last - first))

/-- One number per second of a duration in nanoseconds. -/
def perSecond (owner amount duration : Tag) (view : View) : Except MetricError Float := do
  let amount ← view.scalar owner amount
  let duration ← view.scalar owner duration
  if duration ≤ 0.0 then .error (.underivable owner .zeroDuration)
  else .ok (amount / (duration / nanosPerSecond))

end BenchMetrics.Measure
