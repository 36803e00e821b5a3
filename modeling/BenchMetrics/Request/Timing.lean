import BenchMetrics.Request.Basic
/-! Timings of a request. All of them are absent unless the request is usable. -/
namespace BenchMetrics.Request

/-- No failure, at least one reply, and a start and replies at moments that can be measured. -/
def isUsable (r : Request) : Bool :=
  r.failure.isNone && inOpenRange r.startNs && !r.replies.isEmpty &&
    r.replies.all fun reply => inOpenRange reply.receivedNs

/-- When the replies arrived, if the request is usable. -/
def arrivals? (r : Request) : Option (List Int64) :=
  if r.isUsable then some (r.replies.map Reply.receivedNs) else none

/-- From the dispatch to the first reply. -/
def timeToFirst (r : Request) : Option Int64 :=
  r.arrivals?.bind fun ts => ts.head?.map (· - r.startNs)

/-- Between the first two replies. -/
def timeToSecond (r : Request) : Option Int64 :=
  r.arrivals?.bind fun
    | first :: second :: _ => some (second - first)
    | _ => none

/-- From the dispatch to the completion. -/
def timeToLast (r : Request) : Option Int64 :=
  r.arrivals?.bind fun _ => r.endNs.bind (checkedSub · r.startNs)

/-- The replies that carry tokens: all but a final one that ends the stream. -/
def tokenReplies (r : Request) : List Reply :=
  if r.replies.getLast?.any Reply.endsStream then r.replies.dropLast else r.replies

/-- The mean distance of the replies that carry tokens. -/
def interTokenLatency (r : Request) : Option Float :=
  if r.isUsable then
    match r.tokenReplies.map Reply.receivedNs with
    | first :: second :: rest =>
      let last := (second :: rest).getLastD second
      some (nanosToFloat (last - first) / Float.ofNat (rest.length + 1))
    | _ => none
  else none

/-- How long the reply at an index took: the first from the first byte, the others from the
reply before. -/
def tokenLatency (r : Request) (index : Nat) : Option Int64 :=
  r.arrivals?.bind fun ts =>
    ts[index]?.bind fun current =>
      (if index = 0 then r.firstByteNs else ts[index - 1]?).bind (checkedSub current)

end BenchMetrics.Request
