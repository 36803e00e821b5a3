import BenchMetrics.Run.Session
/-! A session as two processes and the channel between them. The reader goes through the lines
and sends their records; the channel holds as many as there is room for, and hands them on in
order; the consumer feeds the engine. Either may go on whenever it can. -/
namespace BenchMetrics

namespace Session

def isBlank : Except FileFault String → Bool
  | .ok text => Text.blank text
  | .error _ => false

def recordOn? : Except FileFault String → Option Record
  | .ok text => Json.decodeText Record.decode text
  | .error _ => none

/-- The lines one after the other, with nothing in between: the records of those that are not
blank, then the engine over them, then its summary. -/
def inTurn (e : Engine) (lines : List (Except FileFault String)) : Option Summary := do
  let records ← (lines.filter (!isBlank ·)).mapM recordOn?
  match e.processAll records with
  | (e, .ok ()) => (e.finish .completed).toOption
  | (_, .error _) => none

end Session

namespace Pipeline

inductive Reader where
  /-- About to read the first of these lines, which has this number. -/
  | reading (number : Nat) (lines : List (Except FileFault String))
  /-- It has a record, and waits for room. -/
  | sending (record : Record) (number : Nat) (lines : List (Except FileFault String))
  /-- It has closed the channel, and waits for the consumer. -/
  | waiting
  /-- It has ended with an error, which closes the channel as well. -/
  | failed (error : SessionError)

namespace Reader

/-- Where a line leaves the reader. -/
def after (number : Nat) (lines : List (Except FileFault String)) :
    Except SessionError (Option Record) → Reader
  | .error err => .failed err
  | .ok none => .reading number lines
  | .ok (some r) => .sending r number lines

def hasClosed : Reader → Bool
  | .waiting | .failed _ => true
  | .reading .. | .sending .. => false

end Reader

inductive Consumer where
  /-- Waits for a record, or for the end of them. -/
  | receiving (e : Engine)
  /-- It has taken a record that the engine is not done with. -/
  | busy (e : Engine) (record : Record)
  | ended (result : Except MetricError Summary)

namespace Consumer

/-- Where the answer of the engine to a record leaves the consumer. -/
def after : Engine × Except MetricError Unit → Consumer
  | (e, .ok ()) => .receiving e
  | (_, .error err) => .ended (.error err)

def hasEnded : Consumer → Bool
  | .ended _ => true
  | .receiving _ | .busy .. => false

end Consumer

structure State where
  reader : Reader
  /-- What the channel holds, the oldest record first. -/
  queued : List Record
  consumer : Consumer

def start (e : Engine) (lines : List (Except FileFault String)) : State :=
  ⟨.reading 1 lines, [], .receiving e⟩

/-- What can happen next. There is room for one record at least, and nothing can be sent to a
consumer that has ended. -/
inductive Step (room : Nat) : State → State → Prop where
  | read {number : Nat} {line : Except FileFault String} {lines : List (Except FileFault String)}
    {queued : List Record} {consumer : Consumer} :
    Step room ⟨.reading number (line :: lines), queued, consumer⟩
      ⟨.after (number + 1) lines (Session.readLine number line), queued, consumer⟩
  | close {number : Nat} {queued : List Record} {consumer : Consumer} :
    Step room ⟨.reading number [], queued, consumer⟩ ⟨.waiting, queued, consumer⟩
  | send {r : Record} {number : Nat} {lines : List (Except FileFault String)}
    {queued : List Record} {consumer : Consumer} (hroom : queued.length < max room 1)
    (hopen : consumer.hasEnded = false) :
    Step room ⟨.sending r number lines, queued, consumer⟩
      ⟨.reading number lines, queued ++ [r], consumer⟩
  | giveUp {r : Record} {number : Nat} {lines : List (Except FileFault String)}
    {queued : List Record} {consumer : Consumer} (hended : consumer.hasEnded = true) :
    Step room ⟨.sending r number lines, queued, consumer⟩ ⟨.waiting, queued, consumer⟩
  | receive {reader : Reader} {r : Record} {queued : List Record} {e : Engine} :
    Step room ⟨reader, r :: queued, .receiving e⟩ ⟨reader, queued, .busy e r⟩
  | process {reader : Reader} {r : Record} {queued : List Record} {e : Engine} :
    Step room ⟨reader, queued, .busy e r⟩ ⟨reader, queued, .after (e.process r)⟩
  | finish {reader : Reader} {e : Engine} (hclosed : reader.hasClosed = true) :
    Step room ⟨reader, [], .receiving e⟩ ⟨reader, [], .ended (e.finish .completed)⟩

/-- What the session comes to, once that is settled. A reader that has failed does not wait for
the consumer. -/
def State.outcome? (s : State) : Option (Except SessionError Summary) :=
  match s.reader, s.consumer with
  | .failed err, _ => some (.error err)
  | .waiting, .ended result => some (result.mapError .refused)
  | _, _ => none

end Pipeline
end BenchMetrics
