import BenchMetrics.Json.Basic
import BenchMetrics.Request.Failure
import BenchMetrics.Stream.Reader
import BenchMetrics.Time.Stamp
/-! One request from its dispatch to its completion or failure, with the replies that arrived
in between. -/
namespace BenchMetrics

/-- What was sent: any JSON value that can be written. -/
structure Payload where
  json : Json
  proper : json.proper = true

/-- The payload that a JSON value stands for. Every part of the value has to be readable, a member
that a later one replaces as well. -/
def Payload.ofJson? (j : Json) : Option Payload :=
  if !j.readable then none
  else if h : j.normal.proper = true then some ⟨j.normal, h⟩
  else none

def Payload.null : Payload := ⟨.null, rfl⟩

/-- Something received for a request: a chunk of a stream, or a whole body. -/
inductive Reply where
  | stream (chunk : Chunk)
  | text (receivedNs : Int64) (body : String)
  deriving DecidableEq, Repr

namespace Reply

def receivedNs : Reply → Int64
  | .stream chunk => chunk.receivedNs
  | .text ns _ => ns

/-- A chunk that ends its stream carries no token. -/
def endsStream : Reply → Bool
  | .stream chunk => chunk.endsStream
  | .text _ _ => false

end Reply

structure Request where
  payload : Payload
  startNs : Int64
  endNs : Option Int64
  /-- When the first byte arrived. -/
  firstByteNs : Option Int64
  status : Option UInt16
  /-- In the order of arrival. -/
  replies : List Reply
  failure : Option Failure
  /-- Sent later than planned. -/
  delayed : Bool

namespace Request

def start (payload : Payload) (startNs : Int64) : Request :=
  ⟨payload, startNs, none, none, none, [], none, false⟩

def setFirstByte (r : Request) (ns : Int64) : Request := { r with firstByteNs := some ns }

def receive (r : Request) (reply : Reply) : Request := { r with replies := r.replies ++ [reply] }

def complete (r : Request) (ns : Int64) (status : Option UInt16) : Request :=
  { r with endNs := some ns, status := status }

def fail (r : Request) (f : Failure) : Request := { r with failure := some f }

/-- One event in the life of a request. -/
inductive Step where
  | firstByte (ns : Int64)
  | receive (reply : Reply)
  | complete (ns : Int64) (status : Option UInt16)
  | fail (failure : Failure)

def apply (r : Request) : Step → Request
  | .firstByte ns => r.setFirstByte ns
  | .receive reply => r.receive reply
  | .complete ns status => r.complete ns status
  | .fail failure => r.fail failure

def run (r : Request) (steps : List Step) : Request := steps.foldl apply r

end Request
end BenchMetrics
