import BenchMetrics.Metric.Tag
/-! What can go wrong with metrics. A fault concerns one record and one metric; an error is
fatal when it shows that the set of metrics itself is wrong. -/
namespace BenchMetrics

/-- Why a metric cannot use a record. -/
inductive Fault where
  | missingTimestamp (what : String)
  | tooFewResponses (required actual : Nat)
  /-- The response at an index came before the moment that it is measured from. -/
  | outOfOrder (index : Nat)
  | missingTokenCount (what : String)
  | tooFewTokens (required actual : UInt64)
  | missingDependency (tag : Tag)
  | zeroValue (what : String)
  deriving DecidableEq, Repr

def Fault.message : Fault → String
  | .missingTimestamp what => "missing or invalid " ++ what ++ " timestamp"
  | .tooFewResponses required actual =>
    "requires at least " ++ toString required ++ " responses, got " ++ toString actual
  | .outOfOrder index =>
    "response " ++ toString index ++ " is earlier than the timestamp it follows"
  | .missingTokenCount what => "missing " ++ what ++ " token count"
  | .tooFewTokens required actual =>
    "requires at least " ++ toString required.toNat ++ " tokens, got " ++ toString actual.toNat
  | .missingDependency tag => "dependency '" ++ tag.text ++ "' has no value for this record"
  | .zeroValue what => what ++ " is zero"

/-- Why a summary metric has no meaningful value. -/
inductive Underivable where
  | zeroDuration
  | reversedSpan (first last : Int64)
  | other (reason : String)
  deriving DecidableEq, Repr

def Underivable.message : Underivable → String
  | .zeroDuration => "benchmark duration is zero"
  | .reversedSpan first last =>
    "last response (" ++ toString last.toInt ++ ") precedes first request (" ++
      toString first.toInt ++ ")"
  | .other reason => reason

/-- A metric was driven in the pass that is not its own. -/
inductive WrongPass where
  | recordMissing
  | recordGiven
  deriving DecidableEq, Repr

def WrongPass.message : WrongPass → String
  | .recordMissing => "per-record metric called without a record"
  | .recordGiven => "summary metric called with a record"

inductive MetricError where
  | invalidTag (tag : Tag) (fault : TagFault)
  | duplicateTag (tag : Tag)
  | unknownMetric (name : String)
  | unknownDependency (metric dependency : Tag)
  /-- The last tag repeats the first. -/
  | dependencyCycle (path : List Tag)
  | notATimeMetric (tag : Tag)
  | rejected (metric : Tag) (fault : Fault)
  | missingValue (metric dependency : Tag)
  | underivable (metric : Tag) (reason : Underivable)
  /-- Everything selected needs a streaming run. -/
  | nothingSelected (dropped : List Tag)
  | wrongPass (metric : Tag) (pass : WrongPass)
  deriving DecidableEq, Repr

namespace MetricError

/-- Errors that no record is to blame for. -/
def isFatal : MetricError → Bool
  | .rejected _ _ | .missingValue _ _ | .underivable _ _ => false
  | _ => true

def fault? : MetricError → Option Fault
  | .rejected _ fault => some fault
  | _ => none

def joinTags (separator : String) (tags : List Tag) : String :=
  String.intercalate separator (tags.map Tag.text)

def message : MetricError → String
  | .invalidTag tag fault => "invalid metric tag " ++ Text.quoted tag.text ++ ": " ++ fault.message
  | .duplicateTag tag => "metric tag '" ++ tag.text ++ "' is registered more than once"
  | .unknownMetric name => "unknown metric '" ++ name ++ "'"
  | .unknownDependency metric dependency =>
    "metric '" ++ metric.text ++ "' requires unknown metric '" ++ dependency.text ++ "'"
  | .dependencyCycle path => "dependency cycle between metrics: " ++ joinTags " -> " path
  | .notATimeMetric tag => "metric '" ++ tag.text ++ "' is dimensionless and cannot be rescaled"
  | .rejected metric fault => "metric '" ++ metric.text ++ "' rejected record: " ++ fault.message
  | .missingValue metric dependency =>
    "metric '" ++ metric.text ++ "' requires '" ++ dependency.text ++ "', which has no value"
  | .underivable metric reason =>
    "metric '" ++ metric.text ++ "' cannot be derived: " ++ reason.message
  | .nothingSelected dropped =>
    "no metric left to evaluate: " ++ joinTags ", " dropped ++ " require a streaming run"
  | .wrongPass metric pass => "metric '" ++ metric.text ++ "' invoked incorrectly: " ++ pass.message

end MetricError
end BenchMetrics
