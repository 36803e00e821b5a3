import BenchMetrics.Run.Consumer

/-! The consumer and its channel, one step at a time. Senders, whoever asks for the stop, and the
consumer act in any order. The channel hands records on in the order in which they came, and a stop
that was asked for stays asked for until the consumer looks. A channel that makes its senders wait
has some of these schedules. -/
namespace BenchMetrics

/-- A stop that shows before record number `k` and from there on, or never. -/
def visibleFrom (moment : Option Nat) (n : Nat) : Bool := moment.any (· ≤ n)

namespace Delivery

/-- Where the consumer stands, with the engine it has. -/
inductive Phase where
  /-- About to look for the stop. -/
  | look (e : Engine)
  /-- It saw no stop, and takes what the channel has. -/
  | take (e : Engine)
  | done (result : Except MetricError Summary)

/-- Where the answer of the engine to a record leaves the consumer. -/
def Phase.after : Engine × Except MetricError Unit → Phase
  | (e, .ok ()) => .look e
  | (_, .error err) => .done (.error err)

structure State where
  phase : Phase
  /-- What the channel holds, the oldest record first. -/
  queued : List Record
  closed : Bool
  stopAsked : Bool
  /-- All that was sent, and all that was handed to the engine. -/
  sent : List Record
  taken : List Record

inductive Event where
  | send (r : Record)
  | close
  | stop
  /-- The consumer goes on. -/
  | turn

namespace State

def start (e : Engine) : State := ⟨.look e, [], false, false, [], []⟩

def isDone (s : State) : Bool :=
  match s.phase with
  | .done _ => true
  | .look _ | .take _ => false

/-- A consumer that finds nothing on an open channel looks for the stop again. -/
def turn (s : State) : State :=
  match s.phase with
  | .look e =>
    if s.stopAsked then { s with phase := .done (e.finish .cancelled) }
    else { s with phase := .take e }
  | .take e => match s.queued with
    | r :: rs => { s with phase := .after (e.process r), queued := rs, taken := s.taken ++ [r] }
    | [] => { s with phase := if s.closed then .done (e.finish .completed) else .look e }
  | .done _ => s

/-- Nothing can be sent on a channel that is closed, or to a consumer that is done. -/
def step (s : State) : Event → State
  | .send r =>
    if s.closed || s.isDone then s
    else { s with queued := s.queued ++ [r], sent := s.sent ++ [r] }
  | .close => { s with closed := true }
  | .stop => { s with stopAsked := true }
  | .turn => s.turn

def run (s : State) (events : List Event) : State := events.foldl step s

end State
end Delivery
end BenchMetrics
