import BenchMetrics.Json.Decode
import BenchMetrics.Request.Record
/-! Packets, requests and records as JSON values. -/
namespace BenchMetrics
open Json (Place)

namespace FieldName

def encode : FieldName → Json
  | .other name => .obj [("other", .str name)]
  | name => .str name.text

/-- The names without content. -/
def ofKnown? (s : String) : Option FieldName :=
  if s = "data" then some .data
  else if s = "event" then some .event
  else if s = "id" then some .id
  else if s = "retry" then some .retry
  else if s = "comment" then some .comment
  else none

def decode (place : Place) (j : Json) : Option FieldName :=
  match Json.choice j with
  | some ("other", content) => (content.bind Json.asText).map .other
  | _ => Json.oneOf place ofKnown? j

end FieldName

namespace Packet

def fieldNames : List String := ["name", "value"]

def encode (p : Packet) : Json :=
  .obj [("name", p.name.encode), ("value", Json.ofOption .str p.value)]

def decode (place : Place) (j : Json) : Option Packet := do
  let f ← Json.fields fieldNames j
  let name ← f.required "name" (FieldName.decode place)
  let value ← f.nullable "value" Json.asText
  some ⟨name, value⟩

end Packet

namespace Chunk

def fieldNames : List String := ["perf_ns", "packets"]

/-- The members of a chunk, which a reply adds its kind to. -/
def members (c : Chunk) : List (String × Json) :=
  [("perf_ns", Json.ofInt64 c.receivedNs), ("packets", Json.ofList Packet.encode c.packets)]

def encode (c : Chunk) : Json := .obj c.members

def decode (place : Place) (j : Json) : Option Chunk := do
  let f ← Json.fields fieldNames j
  let receivedNs ← f.required "perf_ns" Json.asInt64
  let packets ← f.required "packets" (Json.asList (Packet.decode place))
  some ⟨receivedNs, packets⟩

end Chunk

namespace Reply

def encode : Reply → Json
  | .stream chunk => .obj (("type", .str "stream") :: chunk.members)
  | .text ns body =>
    .obj [("type", .str "text"), ("perf_ns", Json.ofInt64 ns), ("text", .str body)]

def decodeText (j : Json) : Option Reply := do
  let f ← Json.fields ["perf_ns", "text"] j
  let ns ← f.required "perf_ns" Json.asInt64
  let body ← f.required "text" Json.asText
  some (.text ns body)

def decode (j : Json) : Option Reply :=
  match Json.tagged "type" j with
  | some ("stream", content) => (Chunk.decode .tagged content).map .stream
  | some ("text", content) => decodeText content
  | _ => none

end Reply

namespace Failure

def fieldNames : List String := ["code", "type", "message"]

def encode (e : Failure) : Json :=
  .obj [("code", Json.ofOption Json.ofUInt16 e.code), ("type", Json.ofOption .str e.kind),
    ("message", .str e.message)]

def decode (j : Json) : Option Failure := do
  let f ← Json.fields fieldNames j
  let code ← f.optional "code" Json.asUInt16
  let kind ← f.optional "type" Json.asText
  let message ← f.required "message" Json.asText
  some ⟨code, kind, message⟩

end Failure

namespace FailureReport

def encodeCount (c : FailureCount) : Json :=
  .obj [("error", c.failure.encode), ("count", Json.ofCount c.count)]

def decodeCount (j : Json) : Option FailureCount := do
  let f ← Json.fields ["error", "count"] j
  let failure ← f.required "error" Failure.decode
  let count ← f.required "count" Json.asCount
  some ⟨failure, count⟩

def fieldNames : List String := ["total", "entries", "was_cancelled"]

def encode (r : FailureReport) : Json :=
  .obj [("total", Json.ofCount r.total), ("entries", Json.ofList encodeCount r.entries),
    ("was_cancelled", .bool r.wasCancelled)]

def decode (j : Json) : Option FailureReport := do
  let f ← Json.fields fieldNames j
  let total ← f.required "total" Json.asCount
  let entries ← f.required "entries" (Json.asList decodeCount)
  let wasCancelled ← f.required "was_cancelled" Json.asBool
  some ⟨total, entries, wasCancelled⟩

end FailureReport

namespace Request

def fieldNames : List String :=
  ["payload", "start_perf_ns", "end_perf_ns", "recv_start_perf_ns", "status", "responses",
    "error", "delayed"]

def encode (r : Request) : Json :=
  .obj [("payload", r.payload.json), ("start_perf_ns", Json.ofInt64 r.startNs),
    ("end_perf_ns", Json.ofOption Json.ofInt64 r.endNs),
    ("recv_start_perf_ns", Json.ofOption Json.ofInt64 r.firstByteNs),
    ("status", Json.ofOption Json.ofUInt16 r.status),
    ("responses", Json.ofList Reply.encode r.replies),
    ("error", Json.ofOption Failure.encode r.failure), ("delayed", .bool r.delayed)]

def decode (j : Json) : Option Request := do
  let f ← Json.fields fieldNames j
  let payload ← f.withDefault "payload" Payload.ofJson? .null
  let startNs ← f.required "start_perf_ns" Json.asInt64
  let endNs ← f.optional "end_perf_ns" Json.asInt64
  let firstByteNs ← f.optional "recv_start_perf_ns" Json.asInt64
  let status ← f.optional "status" Json.asUInt16
  let replies ← f.withDefault "responses" (Json.asList Reply.decode) []
  let failure ← f.optional "error" Failure.decode
  let delayed ← f.withDefault "delayed" Json.asBool false
  some ⟨payload, startNs, endNs, firstByteNs, status, replies, failure, delayed⟩

end Request

namespace Extract

def fieldNames : List String :=
  ["perf_ns", "raw_text", "parsed_text", "token_count", "metadata"]

def encode (e : Extract) : Json :=
  .obj [("perf_ns", Json.ofInt64 e.receivedNs), ("raw_text", Json.ofList .str e.rawText),
    ("parsed_text", Json.ofList .str e.parsedText),
    ("token_count", Json.ofOption Json.ofUInt64 e.tokens),
    ("metadata", Json.ofDict .str e.metadata)]

def decode (j : Json) : Option Extract := do
  let f ← Json.fields fieldNames j
  let receivedNs ← f.required "perf_ns" Json.asInt64
  let rawText ← f.withDefault "raw_text" (Json.asList Json.asText) []
  let parsedText ← f.withDefault "parsed_text" (Json.asList Json.asText) []
  let tokens ← f.optional "token_count" Json.asUInt64
  let metadata ← f.withDefault "metadata" (Json.asDict Json.asText) .empty
  some ⟨receivedNs, rawText, parsedText, tokens, metadata⟩

end Extract

namespace Record

def fieldNames : List String :=
  ["request", "worker_id", "conversation_id", "turn_index", "model_name", "input_token_count",
    "output_token_count", "responses"]

def encode (r : Record) : Json :=
  .obj [("request", r.request.encode), ("worker_id", Json.ofOption .str r.worker),
    ("conversation_id", Json.ofOption .str r.conversation),
    ("turn_index", Json.ofOption Json.ofUInt32 r.turn),
    ("model_name", Json.ofOption .str r.model),
    ("input_token_count", Json.ofOption Json.ofUInt64 r.inputTokens),
    ("output_token_count", Json.ofOption Json.ofUInt64 r.outputTokens),
    ("responses", Json.ofList Extract.encode r.extracts)]

def decode (j : Json) : Option Record := do
  let f ← Json.fields fieldNames j
  let request ← f.required "request" Request.decode
  let worker ← f.optional "worker_id" Json.asText
  let conversation ← f.optional "conversation_id" Json.asText
  let turn ← f.optional "turn_index" Json.asUInt32
  let model ← f.optional "model_name" Json.asText
  let inputTokens ← f.optional "input_token_count" Json.asUInt64
  let outputTokens ← f.optional "output_token_count" Json.asUInt64
  let extracts ← f.withDefault "responses" (Json.asList Extract.decode) []
  some ⟨request, worker, conversation, turn, model, inputTokens, outputTokens, extracts⟩

end Record
end BenchMetrics
