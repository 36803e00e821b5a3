import BenchMetrics.Exchange.Request
import BenchMetrics.Run.Identity
import BenchMetrics.Json.Reader
import BenchMetrics.Run.Summary
import BenchMetrics.Settings.Basic
import BenchMetrics.Time.Instant
/-! Settings, metric values, results and summaries as JSON values. -/
namespace BenchMetrics

namespace TimeUnit

def encode (u : TimeUnit) : Json := .str u.short

def decode (j : Json) : Option TimeUnit := Json.oneOf .plain ofShort? j

end TimeUnit

namespace RejectionPolicy

def encode (p : RejectionPolicy) : Json := .str p.text

def decode (j : Json) : Option RejectionPolicy := Json.oneOf .plain ofText? j

end RejectionPolicy

namespace Stage

def word : Stage → String
  | .record => "record"
  | .summary => "metric"
  | .both => "both"

def ofWord? (s : String) : Option Stage :=
  if s = "record" then some .record
  else if s = "metric" then some .summary
  else if s = "both" then some .both
  else none

def encode (s : Stage) : Json := .str s.word

def decode (j : Json) : Option Stage := Json.oneOf .plain ofWord? j

end Stage

namespace Settings

def fieldNames : List String := ["streaming", "failure_policy", "metrics", "display_unit"]

def encode (s : Settings) : Json :=
  .obj [("streaming", .bool s.streaming), ("failure_policy", s.policy.encode),
    ("metrics", Json.ofOption (Json.ofList .str) s.selection),
    ("display_unit", s.displayUnit.encode)]

/-- Every field may be left out and has its default then. -/
def decode (j : Json) : Option Settings := do
  let f ← Json.fields fieldNames j
  let streaming ← f.withDefault "streaming" Json.asBool default.streaming
  let policy ← f.withDefault "failure_policy" RejectionPolicy.decode default.policy
  let selection ← f.withDefault "metrics" (Json.asOption (Json.asList Json.asText))
    default.selection
  let displayUnit ← f.withDefault "display_unit" TimeUnit.decode default.displayUnit
  some ⟨streaming, policy, selection, displayUnit⟩

end Settings

namespace Value

def encode : Value → Json
  | .unset => .str "unset"
  | .scalar x => .obj [("scalar", .float x)]
  | .series slots =>
    .obj [("series", Json.ofList (Json.ofOption fun x => .float x.toFloat) slots.toList)]

def decode (j : Json) : Option Value :=
  match Json.choice j with
  | some ("unset", content) => if Json.noContent .plain content then some .unset else none
  | some ("scalar", some j) => (Json.asFloat j).map .scalar
  | some ("series", some j) =>
    (Json.asList (Json.asOption fun j => (Json.asFloat j).map .of) j).map fun slots =>
      .series slots.toArray
  | _ => none

end Value

namespace MetricResult

def fieldNames : List String :=
  ["tag", "header", "unit", "kind", "larger_is_better", "count", "avg", "min", "max", "std",
    "p1", "p5", "p10", "p25", "p50", "p75", "p90", "p95", "p99"]

def encode (r : MetricResult) : Json :=
  let figure := Json.ofOption Json.float
  .obj [("tag", .str r.tag), ("header", .str r.header), ("unit", .str r.unit),
    ("kind", r.stage.encode), ("larger_is_better", .bool r.largerIsBetter),
    ("count", Json.ofCount r.count), ("avg", figure r.figures.avg),
    ("min", figure r.figures.min), ("max", figure r.figures.max), ("std", figure r.figures.std),
    ("p1", figure r.figures.p1), ("p5", figure r.figures.p5), ("p10", figure r.figures.p10),
    ("p25", figure r.figures.p25), ("p50", figure r.figures.p50), ("p75", figure r.figures.p75),
    ("p90", figure r.figures.p90), ("p95", figure r.figures.p95), ("p99", figure r.figures.p99)]

def decodeFigures (f : Json.Fields) : Option Figures := do
  let figure (name : String) := f.nullable name Json.asFloat
  let avg ← figure "avg"
  let min ← figure "min"
  let max ← figure "max"
  let std ← figure "std"
  let p1 ← figure "p1"
  let p5 ← figure "p5"
  let p10 ← figure "p10"
  let p25 ← figure "p25"
  let p50 ← figure "p50"
  let p75 ← figure "p75"
  let p90 ← figure "p90"
  let p95 ← figure "p95"
  let p99 ← figure "p99"
  some ⟨avg, min, max, std, p1, p5, p10, p25, p50, p75, p90, p95, p99⟩

def decode (j : Json) : Option MetricResult := do
  let f ← Json.fields fieldNames j
  let tag ← f.required "tag" Json.asText
  let header ← f.required "header" Json.asText
  let unit ← f.required "unit" Json.asText
  let stage ← f.required "kind" Stage.decode
  let largerIsBetter ← f.required "larger_is_better" Json.asBool
  let count ← f.required "count" Json.asCount
  let figures ← decodeFigures f
  some ⟨tag, header, unit, stage, largerIsBetter, count, figures⟩

end MetricResult

/-- A summary with the identity of its run and the moment it was made. -/
structure Report where
  runId : RunId
  generatedAt : Instant
  summary : Summary

namespace Summary

def members (s : Summary) : List (String × Json) :=
  [("records_processed", Json.ofCount s.processed), ("records_errored", Json.ofCount s.failed),
    ("records_invalid", Json.ofCount s.unusable),
    ("validation_failures", Json.ofDict Json.ofCount s.rejections),
    ("results", Json.ofList MetricResult.encode s.results),
    ("values", Json.ofDict Value.encode s.values), ("errors", s.failures.encode),
    ("partial", .bool s.wasPartial)]

def encode (s : Summary) : Json := .obj s.members

end Summary

namespace Report

def fieldNames : List String :=
  ["run_id", "generated_at", "records_processed", "records_errored", "records_invalid",
    "validation_failures", "results", "values", "errors", "partial"]

def encode (r : Report) : Json :=
  .obj (("run_id", .str r.runId.text) :: ("generated_at", .str r.generatedAt.text) ::
    r.summary.members)

def decode (j : Json) : Option Report := do
  let f ← Json.fields fieldNames j
  let runId ← f.required "run_id" fun j => (Json.asText j).bind RunId.parse?
  let generatedAt ← f.required "generated_at" fun j => (Json.asText j).bind Instant.parse?
  let processed ← f.required "records_processed" Json.asCount
  let failed ← f.required "records_errored" Json.asCount
  let unusable ← f.withDefault "records_invalid" Json.asCount 0
  let rejections ← f.required "validation_failures" (Json.asDict Json.asCount)
  let results ← f.required "results" (Json.asList MetricResult.decode)
  let values ← f.required "values" (Json.asDict Value.decode)
  let failures ← f.required "errors" FailureReport.decode
  let wasPartial ← f.required "partial" Json.asBool
  some ⟨runId, generatedAt,
    ⟨processed, failed, unusable, rejections, results, values, failures, wasPartial⟩⟩

end Report

/-- The value that a text writes in JSON. -/
def Json.decodeText {α : Type} (decode : Json → Option α) (text : String) : Option α :=
  (Json.read? text).bind decode

end BenchMetrics
