import BenchMetrics.Metric.Catalog
import BenchMetrics.Metric.Measure
/-! The standard metrics, in the order of their registration. -/
namespace BenchMetrics.Standard

def requestLatency : Tag := ⟨"request_latency"⟩
def timeToFirst : Tag := ⟨"ttft"⟩
def timeToSecond : Tag := ⟨"ttst"⟩
def interTokenLatency : Tag := ⟨"inter_token_latency"⟩
def inputLength : Tag := ⟨"input_sequence_length"⟩
def outputLength : Tag := ⟨"output_sequence_length"⟩
def totalOutputTokens : Tag := ⟨"total_output_tokens"⟩
def requestCount : Tag := ⟨"request_count"⟩
def minRequestTimestamp : Tag := ⟨"min_request_timestamp"⟩
def maxResponseTimestamp : Tag := ⟨"max_response_timestamp"⟩
def benchmarkDuration : Tag := ⟨"benchmark_duration"⟩
def requestThroughput : Tag := ⟨"request_throughput"⟩
def tokenThroughput : Tag := ⟨"output_token_throughput"⟩
def tokenThroughputPerUser : Tag := ⟨"output_token_throughput_per_user"⟩

/-- A time in nanoseconds, of which less is better. -/
def timeOf (tag : Tag) (header : String) (stage : Stage) (streamingOnly : Bool)
    (required : List Tag) : Descriptor :=
  ⟨tag, header, .time .nanoseconds, stage, false, streamingOnly, required⟩

/-- A count or rate. -/
def amountOf (tag : Tag) (header label : String) (stage : Stage)
    (largerIsBetter streamingOnly : Bool) (required : List Tag) : Descriptor :=
  ⟨tag, header, .plain label, stage, largerIsBetter, streamingOnly, required⟩

def define (d : Descriptor) (fresh : Descriptor → Accumulator) : Definition := ⟨d, fresh d⟩

def latencies : List Definition := [
  define (timeOf requestLatency "Request Latency" .record false [])
    (.series · Measure.requestLatency),
  define (timeOf timeToFirst "Time to First Token" .record true [])
    (.series · Measure.timeToFirst),
  define (timeOf timeToSecond "Time to Second Token" .record true [])
    (.series · Measure.timeToSecond),
  define (timeOf interTokenLatency "Inter Token Latency" .record true [])
    (.series · Measure.interTokenLatency)]

def lengths : List Definition := [
  define (amountOf inputLength "Input Sequence Length" "tokens" .record false false [])
    (.series · Measure.inputLength),
  define (amountOf outputLength "Output Sequence Length" "tokens" .record false false [])
    (.series · Measure.outputLength),
  define (amountOf totalOutputTokens "Total Output Tokens" "tokens" .summary true false
      [outputLength])
    (.derived · (Measure.total totalOutputTokens outputLength))]

def spans : List Definition := [
  define (amountOf requestCount "Request Count" "requests" .record true false [])
    (.fold · Measure.requestCount (· + ·)),
  define (timeOf minRequestTimestamp "Minimum Request Timestamp" .record false [])
    (.timestamps · Measure.requestStart min),
  define (timeOf maxResponseTimestamp "Maximum Response Timestamp" .record false [])
    (.timestamps · Measure.lastResponse max),
  define (timeOf benchmarkDuration "Benchmark Duration" .summary false
      [minRequestTimestamp, maxResponseTimestamp])
    (.derived · (Measure.span benchmarkDuration minRequestTimestamp maxResponseTimestamp))]

def throughputs : List Definition := [
  define (amountOf requestThroughput "Request Throughput" "requests/sec" .summary true false
      [requestCount, benchmarkDuration])
    (.derived · (Measure.perSecond requestThroughput requestCount benchmarkDuration)),
  define (amountOf tokenThroughput "Output Token Throughput" "tokens/sec" .summary true false
      [totalOutputTokens, benchmarkDuration])
    (.derived · (Measure.perSecond tokenThroughput totalOutputTokens benchmarkDuration)),
  define (amountOf tokenThroughputPerUser "Output Token Throughput Per User" "tokens/sec/user"
      .both true true [interTokenLatency])
    (.rate · interTokenLatency "inter token latency")]

def groups : List (List Definition) := [latencies, lengths, spans, throughputs]

def definitions : List Definition := groups.flatten

def catalog : Catalog := ⟨definitions, by decide⟩

end BenchMetrics.Standard
