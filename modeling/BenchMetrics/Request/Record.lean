import BenchMetrics.Request.Timing
/-! A finished request with what was extracted from its replies: the unit that metrics are
computed from. -/
namespace BenchMetrics

/-- What was extracted from one reply. -/
structure Extract where
  receivedNs : Int64
  rawText : List String
  parsedText : List String
  tokens : Option UInt64
  metadata : Dict String
  deriving DecidableEq

def Extract.make (receivedNs : Int64) (tokens : Option UInt64) : Extract :=
  ⟨receivedNs, [], [], tokens, .empty⟩

def Extract.withText (e : Extract) (text : String) : Extract :=
  { e with parsedText := e.parsedText ++ [text] }

structure Record where
  request : Request
  worker : Option String
  conversation : Option String
  /-- Place of the request in its conversation. -/
  turn : Option UInt32
  model : Option String
  inputTokens : Option UInt64
  outputTokens : Option UInt64
  /-- In the order of arrival. -/
  extracts : List Extract

namespace Record

/-- The counts that are there, added up in 64 bits from the first on; none if there is none. -/
def sumTokens (es : List Extract) : Except Panic (Option UInt64) :=
  (es.filterMap (·.tokens)).foldlM (fun total n => (addWords (total.getD 0) n).map some) none

/-- A record of which nothing is known but how many tokens it brought. -/
def plain (request : Request) (outputTokens : Option UInt64) (extracts : List Extract) : Record :=
  ⟨request, none, none, none, none, none, outputTokens, extracts⟩

/-- The output tokens are counted from the extracts. -/
def make (request : Request) (extracts : List Extract) : Except Panic Record :=
  (sumTokens extracts).map (plain request · extracts)

def startNs (r : Record) : Int64 := r.request.startNs

def failure (r : Record) : Option Failure := r.request.failure

/-- The rule for usable requests, applied to the extracts. -/
def isUsable (r : Record) : Bool :=
  r.request.failure.isNone && inOpenRange r.startNs && !r.extracts.isEmpty &&
    r.extracts.all fun e => inOpenRange e.receivedNs

end Record
end BenchMetrics
