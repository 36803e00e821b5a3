import BenchMetrics.Text.Blank
/-! Packets of an event stream: one per line that is not blank. A chunk is what arrived at one
moment. -/
namespace BenchMetrics

inductive FieldName where
  | data
  | event
  | id
  | retry
  | comment
  /-- Any other name, as it was written. -/
  | other (name : String)
  deriving DecidableEq, Repr

namespace FieldName

/-- The field that a written name means; case does not matter for the four known names. -/
def ofText (s : String) : FieldName :=
  let known := Text.lowerAscii s
  if known = "data" then .data
  else if known = "event" then .event
  else if known = "id" then .id
  else if known = "retry" then .retry
  else .other s

def text : FieldName → String
  | .data => "data"
  | .event => "event"
  | .id => "id"
  | .retry => "retry"
  | .comment => "comment"
  | .other name => name

end FieldName

structure Packet where
  name : FieldName
  /-- Absent when the line had no colon. -/
  value : Option String
  deriving DecidableEq, Repr

/-- The value that ends a stream. -/
def doneMarker : String := "[DONE]"

def Packet.isDone (p : Packet) : Bool := p.value == some doneMarker

structure Chunk where
  /-- When it arrived, in nanoseconds of a monotonic clock. -/
  receivedNs : Int64
  packets : List Packet
  deriving DecidableEq, Repr

namespace Chunk

def isEmpty (c : Chunk) : Bool := c.packets.isEmpty

/-- The values of the data packets. -/
def data (c : Chunk) : List String :=
  (c.packets.filter (·.name == .data)).filterMap (·.value)

def lastValue (c : Chunk) : Option String := c.packets.getLast?.bind (·.value)

/-- The last packet is the done marker; one before it does not count. -/
def endsStream (c : Chunk) : Bool := c.packets.getLast?.any Packet.isDone

end Chunk
end BenchMetrics
