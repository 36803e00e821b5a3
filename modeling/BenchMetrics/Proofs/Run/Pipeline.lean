import BenchMetrics.Run.Pipeline
import BenchMetrics.Proofs.Run.Delivery
import Mathlib.Data.List.Chain
import Mathlib.Logic.Relation

/-! The reader and the consumer of a session. Whichever of them goes on when, and however much room
there is between them, they come to an end, and what they come to has the summary of the lines one
after the other, or none if that has none. -/
namespace BenchMetrics
open Relation

namespace Session

/-- Records that come in front of a reading. -/
def Reading.behind (records : List Record) (reading : Reading) : Reading :=
  { reading with records := records ++ reading.records }

theorem Reading.behind_append (before records : List Record) (reading : Reading) :
    (reading.behind records).behind before = reading.behind (before ++ records) := by
  rw [behind, behind, behind, List.append_assoc]

section
variable {number : Nat} {line : Except FileFault String} {lines : List (Except FileFault String)}

theorem readFrom_of_error {err : SessionError} (h : readLine number line = .error err) :
    readFrom number (line :: lines) = ⟨[], some err⟩ := by rw [readFrom, h]

theorem readFrom_of_blank (h : readLine number line = .ok none) :
    readFrom number (line :: lines) = readFrom (number + 1) lines := by
  rw [readFrom, h]
  rfl

theorem readFrom_of_record {r : Record} (h : readLine number line = .ok (some r)) :
    readFrom number (line :: lines) = (readFrom (number + 1) lines).behind [r] := by
  rw [readFrom, h]
  rfl

end

/-- A line is blank, or it holds a record, or it is an error. -/
theorem readLine_cases (number : Nat) (line : Except FileFault String) :
    (isBlank line = true ∧ readLine number line = .ok none) ∨
      (isBlank line = false ∧ ∃ r, recordOn? line = some r ∧
        readLine number line = .ok (some r)) ∨
      (isBlank line = false ∧ recordOn? line = none ∧ ∃ err, readLine number line = .error err) := by
  cases line with
  | error fault => exact .inr (.inr ⟨rfl, rfl, _, rfl⟩)
  | ok text =>
    simp only [isBlank, recordOn?, readLine]
    cases Text.blank text with
    | true => exact .inl ⟨rfl, rfl⟩
    | false =>
      cases Json.decodeText Record.decode text with
      | some r => exact .inr (.inl ⟨rfl, r, rfl, rfl⟩)
      | none => exact .inr (.inr ⟨rfl, rfl, _, rfl⟩)

/-- The lines that are not blank all hold a record if the reading meets no error; then it has
these records. -/
theorem mapM_recordOn? (number : Nat) (lines : List (Except FileFault String)) :
    (lines.filter (!isBlank ·)).mapM recordOn? =
      match (readFrom number lines).error? with
      | none => some (readFrom number lines).records
      | some _ => none := by
  induction lines generalizing number with
  | nil => rfl
  | cons line lines ih =>
    rcases readLine_cases number line with ⟨hblank, hread⟩ | ⟨hblank, r, hr, hread⟩ |
      ⟨hblank, hr, err, hread⟩
    · rw [readFrom_of_blank hread, List.filter_cons_of_neg (by simp [hblank])]
      exact ih (number + 1)
    · rw [readFrom_of_record hread, List.filter_cons_of_pos (by simp [hblank]), List.mapM_cons, hr,
        ih (number + 1)]
      dsimp only [Reading.behind]
      cases (readFrom (number + 1) lines).error? <;> rfl
    · rw [readFrom_of_error hread, List.filter_cons_of_pos (by simp [hblank]), List.mapM_cons, hr]
      rfl

/-- What a session comes to by what its lines hold. -/
def answer (e : Engine) (room : Nat) (reading : Reading) : Except SessionError Summary :=
  match reading.error? with
  | none => match e.processAll reading.records with
    | (f, .ok ()) => (f.finish .completed).mapError .refused
    | (_, .error err) => .error (.refused err)
  | some error => match e.processAll (settled room reading.records) with
    | (_, .ok ()) => .error error
    | (_, .error err) => .error (.refused err)

theorem analyze_eq (e : Engine) (room : Nat) (lines : List (Except FileFault String)) :
    analyze e room lines = answer e room (readFrom 1 lines) := by
  rw [analyze, answer]
  cases (readFrom 1 lines).error? with
  | none =>
    dsimp only
    have hconsume := e.consume_eq (readFrom 1 lines).records none
    have hnever : visibleFrom none = fun _ => false := rfl
    rw [← hnever, hconsume]
    have hseen : Engine.seen none (readFrom 1 lines).records = (readFrom 1 lines).records := rfl
    rw [hseen]
    rcases e.processAll (readFrom 1 lines).records with ⟨f, err | _⟩ <;> rfl
  | some error =>
    rcases e.processAll (settled room (readFrom 1 lines).records) with ⟨f, err | _⟩ <;> rfl

/-- Where more is to come than there is room for, the first record counts. -/
theorem answer_behind_cons {f : Engine} {room : Nat} {r : Record} {queued : List Record}
    {reading : Reading} (h : max room 1 ≤ queued.length + reading.records.length) :
    answer f room (reading.behind (r :: queued)) = match f.process r with
      | (g, .ok ()) => answer g room (reading.behind queued)
      | (_, .error err) => .error (.refused err) := by
  have hsettled : settled room (r :: (queued ++ reading.records)) =
      r :: settled room (queued ++ reading.records) := by
    have hlength : (r :: (queued ++ reading.records)).length - max room 1 =
        (queued ++ reading.records).length - max room 1 + 1 := by
      rw [List.length_cons, List.length_append]
      omega
    rw [settled, hlength, List.take_succ_cons, settled]
  simp only [answer, Reading.behind, List.cons_append, hsettled, Engine.processAll]
  cases reading.error? <;> rcases f.process r with ⟨g, err | _⟩ <;> rfl

section
variable {e : Engine} {lines : List (Except FileFault String)}

theorem inTurn_of_error {err : SessionError} (h : (readFrom 1 lines).error? = some err) :
    inTurn e lines = none := by
  rw [inTurn, mapM_recordOn? 1, h]
  rfl

theorem inTurn_of_records (h : (readFrom 1 lines).error? = none) :
    inTurn e lines = match e.processAll (readFrom 1 lines).records with
      | (f, .ok ()) => (f.finish .completed).toOption
      | (_, .error _) => none := by
  rw [inTurn, mapM_recordOn? 1, h]
  rfl

theorem inTurn_filter (e : Engine) (lines : List (Except FileFault String)) :
    inTurn e (lines.filter (!isBlank ·)) = inTurn e lines := by
  rw [inTurn, inTurn, List.filter_filter]
  simp only [Bool.and_self]

/-- Records that are refused leave nothing for the lines behind them to mend. -/
theorem inTurn_of_refused {f : Engine} {rs : List Record} {err : MetricError}
    (hfront : rs <+: (readFrom 1 lines).records) (hrs : e.processAll rs = (f, .error err)) :
    inTurn e lines = none := by
  cases herror : (readFrom 1 lines).error? with
  | some err => exact inTurn_of_error herror
  | none =>
    obtain ⟨rest, hrest⟩ := hfront
    rw [inTurn_of_records herror, ← hrest, Engine.processAll_append, hrs]

end

end Session

namespace Pipeline

section
variable {e : Engine} {lines : List (Except FileFault String)} {taken : List Record}
  {room : Nat} {s t : State}

/-- What the consumer has made of the records that it took; it completes only once the channel is
closed and empty. -/
inductive Consumed (e : Engine) (closed : Bool) (queued : List Record) :
    Consumer → List Record → Prop where
  | receiving {f : Engine} {taken : List Record} (htaken : e.processAll taken = (f, .ok ())) :
    Consumed e closed queued (.receiving f) taken
  | busy {f : Engine} {before : List Record} {r : Record}
    (hbefore : e.processAll before = (f, .ok ())) :
    Consumed e closed queued (.busy f r) (before ++ [r])
  | refused {f : Engine} {taken : List Record} {err : MetricError}
    (htaken : e.processAll taken = (f, .error err)) :
    Consumed e closed queued (.ended (.error err)) taken
  | completed {f : Engine} {taken : List Record} (hclosed : closed = true) (hqueued : queued = [])
    (htaken : e.processAll taken = (f, .ok ())) :
    Consumed e closed queued (.ended (f.finish .completed)) taken

/-- How far the reader has come: what it sent is the front of what the lines hold. It gives up only
where the engine has refused one of the records sent. -/
inductive ReadTo (e : Engine) (lines : List (Except FileFault String)) (taken sent : List Record) :
    Reader → Prop where
  | reading {number : Nat} {rest : List (Except FileFault String)}
    (hread : Session.readFrom 1 lines = (Session.readFrom number rest).behind sent) :
    ReadTo e lines taken sent (.reading number rest)
  | sending {r : Record} {number : Nat} {rest : List (Except FileFault String)}
    (hread : Session.readFrom 1 lines = (Session.readFrom number rest).behind (sent ++ [r])) :
    ReadTo e lines taken sent (.sending r number rest)
  | closed (hread : Session.readFrom 1 lines = ⟨sent, none⟩) : ReadTo e lines taken sent .waiting
  | gaveUp {f : Engine} {err : MetricError}
    (hsent : sent <+: (Session.readFrom 1 lines).records)
    (hrefused : e.processAll taken = (f, .error err)) : ReadTo e lines taken sent .waiting
  | failed {err : SessionError} (hread : Session.readFrom 1 lines = ⟨sent, some err⟩) :
    ReadTo e lines taken sent (.failed err)

/-- What holds whenever reader and consumer have come somewhere: the records taken and those that
the channel holds are the records sent. -/
structure Kept (e : Engine) (lines : List (Except FileFault String)) (s : State)
    (taken : List Record) : Prop where
  consumed : Consumed e s.reader.hasClosed s.queued s.consumer taken
  read : ReadTo e lines taken (taken ++ s.queued) s.reader

theorem kept_start (e : Engine) (lines : List (Except FileFault String)) :
    Kept e lines (start e lines) [] where
  consumed := .receiving rfl
  read := .reading rfl

theorem Consumed.of_open {queued queued' : List Record} {consumer : Consumer} {closed : Bool}
    (h : Consumed e false queued consumer taken) : Consumed e closed queued' consumer taken := by
  cases h with
  | receiving htaken => exact .receiving htaken
  | busy hbefore => exact .busy hbefore
  | refused htaken => exact .refused htaken
  | completed hclosed => cases hclosed

theorem Consumed.exists_refused {queued : List Record} {consumer : Consumer}
    (h : Consumed e false queued consumer taken) (hended : consumer.hasEnded = true) :
    ∃ f err, e.processAll taken = (f, .error err) := by
  cases h with
  | receiving | busy => cases hended
  | refused htaken => exact ⟨_, _, htaken⟩
  | completed hclosed => cases hclosed

theorem ReadTo.of_working {f : Engine} {taken' sent : List Record} {reader : Reader}
    (h : ReadTo e lines taken sent reader) (htaken : e.processAll taken = (f, .ok ())) :
    ReadTo e lines taken' sent reader := by
  cases h with
  | reading hread => exact .reading hread
  | sending hread => exact .sending hread
  | closed hread => exact .closed hread
  | gaveUp _ hrefused =>
    -- the reader gives up only once the consumer has ended
    rw [htaken] at hrefused
    cases hrefused
  | failed hread => exact .failed hread

theorem Kept.step (h : Kept e lines s taken) (hstep : Step room s t) :
    ∃ taken', Kept e lines t taken' := by
  obtain ⟨hconsumed, hread⟩ := h
  cases hstep with
  | @read number line rest =>
    refine ⟨taken, hconsumed.of_open, ?_⟩
    cases hread with
    | reading hread =>
      rcases hline : Session.readLine number line with err | _ | r
      · rw [Session.readFrom_of_error hline, Session.Reading.behind, List.append_nil] at hread
        exact .failed hread
      · rw [Session.readFrom_of_blank hline] at hread
        exact .reading hread
      · rw [Session.readFrom_of_record hline, Session.Reading.behind_append] at hread
        exact .sending hread
  | close =>
    refine ⟨taken, hconsumed.of_open, ?_⟩
    cases hread with
    | reading hread =>
      rw [Session.readFrom, Session.Reading.behind, List.append_nil] at hread
      exact .closed hread
  | send =>
    refine ⟨taken, hconsumed.of_open, ?_⟩
    cases hread with
    | sending hread =>
      rw [List.append_assoc] at hread
      exact .reading hread
  | giveUp hended =>
    -- the channel is still open, so that the consumer has not completed
    obtain ⟨f, err, hrefused⟩ := hconsumed.exists_refused hended
    refine ⟨taken, hconsumed.of_open, ?_⟩
    cases hread with
    | sending hread =>
      refine .gaveUp ?_ hrefused
      rw [hread, Session.Reading.behind, List.append_assoc]
      exact List.prefix_append _ _
  | @receive reader r queued f =>
    -- a record that is received leaves the channel, and counts among those taken
    cases hconsumed with
    | receiving htaken =>
      refine ⟨taken ++ [r], .busy htaken, ?_⟩
      rw [List.append_assoc, List.singleton_append]
      exact hread.of_working htaken
  | @process reader r queued f =>
    refine ⟨taken, ?_, hread⟩
    cases hconsumed with
    | busy hbefore =>
      have htaken := Engine.processAll_snoc hbefore r
      rcases hr : f.process r with ⟨g, err | _⟩
      · exact .refused (htaken.trans hr)
      · exact .receiving (htaken.trans hr)
  | finish hclosed =>
    refine ⟨taken, ?_, hread⟩
    cases hconsumed with
    | receiving htaken => exact .completed hclosed rfl htaken

theorem exists_kept (h : ReflTransGen (Step room) (start e lines) s) :
    ∃ taken, Kept e lines s taken := by
  induction h with
  | refl => exact ⟨[], kept_start e lines⟩
  | tail _ hstep ih =>
    obtain ⟨taken, hkept⟩ := ih
    exact hkept.step hstep

/-- Whatever a session comes to has the summary of the lines in turn. -/
theorem Kept.outcome (h : Kept e lines s taken) {o : Except SessionError Summary}
    (ho : s.outcome? = some o) : o.toOption = Session.inTurn e lines := by
  obtain ⟨reader, queued, consumer⟩ := s
  obtain ⟨hconsumed, hread⟩ := h
  cases hread with
  | reading | sending => cases ho
  | failed hread =>
    cases ho
    rw [Session.inTurn_of_error (congrArg Session.Reading.error? hread)]
    rfl
  | closed hread =>
    cases hconsumed with
    | receiving | busy => cases ho
    | @refused f _ err htaken =>
      cases ho
      rw [Session.inTurn_of_refused _ htaken]
      · rfl
      · rw [hread]
        exact List.prefix_append _ _
    | @completed f _ _ hqueued htaken =>
      cases ho
      rw [Session.inTurn_of_records (congrArg Session.Reading.error? hread), hread, hqueued,
        List.append_nil, htaken]
      dsimp only
      cases f.finish .completed <;> rfl
  | gaveUp hsent hrefused =>
    rw [Session.inTurn_of_refused ((List.prefix_append _ _).trans hsent) hrefused]
    cases hconsumed with
    | receiving | busy => cases ho
    | refused =>
      cases ho
      rfl
    | completed _ _ htaken =>
      rw [htaken] at hrefused
      cases hrefused

/-! ### Neither waits for the other for ever -/

/-- As long as nothing is settled, one of the two can go on. -/
theorem exists_step (room : Nat) (h : s.outcome? = none) : ∃ t, Step room s t := by
  obtain ⟨reader, queued, consumer⟩ := s
  -- a consumer that has not ended can go on, unless it waits on a channel that is empty and open
  have hworking : consumer.hasEnded = false → queued ≠ [] ∨ reader.hasClosed = true →
      ∃ t, Step room ⟨reader, queued, consumer⟩ t := by
    intro hopen hready
    cases consumer with
    | busy => exact ⟨_, .process⟩
    | ended => cases hopen
    | receiving =>
      cases queued with
      | cons => exact ⟨_, .receive⟩
      | nil => exact ⟨_, .finish (hready.resolve_left (absurd rfl))⟩
  cases reader with
  | reading number rest =>
    cases rest with
    | nil => exact ⟨_, .close⟩
    | cons => exact ⟨_, .read⟩
  | sending =>
    cases hended : consumer.hasEnded with
    | true => exact ⟨_, .giveUp hended⟩
    | false =>
      by_cases hroom : queued.length < max room 1
      · exact ⟨_, .send hroom hended⟩
      · refine hworking hended (.inl ?_)
        rintro rfl
        exact hroom (Nat.lt_of_lt_of_le Nat.one_pos (le_max_right room 1))
  | waiting =>
    cases consumer with
    | ended => cases h
    | receiving | busy => exact hworking rfl (.inr rfl)
  | failed => cases h

def Reader.left : Reader → Nat
  | .reading _ lines => 4 * lines.length + 1
  | .sending _ _ lines => 4 * lines.length + 4
  | .waiting | .failed _ => 0

def Consumer.left : Consumer → Nat
  | .receiving _ => 1
  | .busy _ _ => 2
  | .ended _ => 0

/-- An upper bound of the steps to come: a line takes four at most, two of them the consumer's. -/
def State.left (s : State) : Nat := s.reader.left + 2 * s.queued.length + s.consumer.left

theorem Step.left_lt (hstep : Step room s t) : t.left < s.left := by
  cases hstep with
  | @read number line rest =>
    rcases Session.readLine number line with err | _ | r
    · simp [State.left, Reader.after, Reader.left]
    · simp [State.left, Reader.after, Reader.left]
    · simp [State.left, Reader.after, Reader.left]
      omega
  | close => simp [State.left, Reader.left]
  | send =>
    simp [State.left, Reader.left]
    omega
  | giveUp => simp [State.left, Reader.left]
  | receive =>
    simp [State.left, Consumer.left]
    omega
  | @process reader r queued f =>
    rcases f.process r with ⟨g, err | _⟩ <;> simp [State.left, Consumer.after, Consumer.left]
  | finish => simp [State.left, Consumer.left]

theorem length_le_left {states : List State} (h : (s :: states).IsChain (Step room)) :
    states.length ≤ s.left := by
  induction states generalizing s with
  | nil => exact Nat.zero_le _
  | cons t states ih =>
    obtain ⟨hstep, hrest⟩ := List.isChain_cons_cons.mp h
    exact (ih hrest).trans_lt hstep.left_lt

/-- The channel never holds more than there is room for. -/
theorem queued_le (h : ReflTransGen (Step room) (start e lines) s) :
    s.queued.length ≤ max room 1 := by
  induction h with
  | refl => exact Nat.zero_le _
  | tail _ hstep ih =>
    cases hstep with
    | read | close | giveUp | process | finish => exact ih
    | send hroom =>
      rw [List.length_append, List.length_singleton]
      exact hroom
    | receive => exact (Nat.le_succ _).trans ih

/-! ### The answer of a session has its schedule -/

/-- The session can go on from here to this outcome. -/
def CanReach (room : Nat) (s : State) (o : Except SessionError Summary) : Prop :=
  ∃ t, ReflTransGen (Step room) s t ∧ t.outcome? = some o

theorem CanReach.head {o : Except SessionError Summary} (hstep : Step room s t)
    (h : CanReach room t o) : CanReach room s o := by
  obtain ⟨u, htu, ho⟩ := h
  exact ⟨u, htu.head hstep, ho⟩

/-- Once the channel is closed, the consumer takes what it holds and finishes. -/
theorem canReach_waiting (room : Nat) (queued : List Record) (f : Engine) :
    CanReach room ⟨.waiting, queued, .receiving f⟩ (Session.answer f room ⟨queued, none⟩) := by
  induction queued generalizing f with
  | nil => exact ⟨_, .single (.finish rfl), rfl⟩
  | cons r queued ih =>
    refine .head .receive (.head .process ?_)
    rw [Session.answer, Engine.processAll]
    rcases f.process r with ⟨g, err | _⟩
    · exact ⟨_, .refl, rfl⟩
    · exact ih g

/-- A record is sent at once if there is room, and otherwise once the oldest has been taken. -/
theorem canReach_sending {reading : Session.Reading} {number : Nat}
    (hrest : ∀ (queued : List Record) (f : Engine), queued.length ≤ max room 1 →
      CanReach room ⟨.reading number lines, queued, .receiving f⟩
        (Session.answer f room (reading.behind queued)))
    (r : Record) {queued : List Record} (f : Engine) (hroom : queued.length ≤ max room 1) :
    CanReach room ⟨.sending r number lines, queued, .receiving f⟩
      (Session.answer f room ((reading.behind [r]).behind queued)) := by
  have hsent : ∀ (queued : List Record) (f : Engine), queued.length < max room 1 →
      CanReach room ⟨.sending r number lines, queued, .receiving f⟩
        (Session.answer f room ((reading.behind [r]).behind queued)) := by
    intro queued f hless
    have hroom' : (queued ++ [r]).length ≤ max room 1 := by
      rw [List.length_append, List.length_singleton]
      exact hless
    rw [Session.Reading.behind_append]
    exact .head (.send hless rfl) (hrest _ f hroom')
  rcases hroom.lt_or_eq with hless | hfull
  · exact hsent queued f hless
  cases queued with
  | nil =>
    have hone := le_max_right room 1
    rw [← hfull] at hone
    cases hone
  | cons x queued =>
    have hmore : max room 1 ≤ queued.length + (reading.behind [r]).records.length := by
      rw [← hfull, Session.Reading.behind, List.length_append, List.length_cons,
        List.length_singleton]
      omega
    have hless : queued.length < max room 1 := by
      rw [← hfull, List.length_cons]
      exact Nat.lt_succ_self _
    rw [Session.answer_behind_cons hmore]
    refine .head .receive (.head .process ?_)
    rcases f.process x with ⟨g, err | _⟩
    · exact .head (.giveUp rfl) ⟨_, .refl, rfl⟩
    · exact hsent queued g hless

/-- A consumer that takes a record only where there is no room for another one. -/
theorem canReach_reading (room : Nat) (lines : List (Except FileFault String)) (number : Nat)
    (queued : List Record) (f : Engine) (hroom : queued.length ≤ max room 1) :
    CanReach room ⟨.reading number lines, queued, .receiving f⟩
      (Session.answer f room ((Session.readFrom number lines).behind queued)) := by
  induction lines generalizing number queued f with
  | nil =>
    rw [Session.readFrom, Session.Reading.behind, List.append_nil]
    exact .head .close (canReach_waiting room queued f)
  | cons line lines ih =>
    refine .head .read ?_
    rcases hline : Session.readLine number line with err | _ | r
    · -- all that was sent has room, so that the consumer need not have taken any of it
      have hnone : Session.settled room queued = [] := by
        rw [Session.settled, Nat.sub_eq_zero_of_le hroom, List.take_zero]
      have hanswer : Session.answer f room ⟨queued, some err⟩ = .error err := by
        simp [Session.answer, hnone, Engine.processAll]
      rw [Session.readFrom_of_error hline, Session.Reading.behind, List.append_nil, hanswer]
      exact ⟨_, .refl, rfl⟩
    · rw [Session.readFrom_of_blank hline]
      exact ih (number + 1) queued f hroom
    · rw [Session.readFrom_of_record hline]
      exact canReach_sending (ih (number + 1)) r f hroom

theorem canReach_analyze (e : Engine) (room : Nat) (lines : List (Except FileFault String)) :
    CanReach room (start e lines) (Session.analyze e room lines) := by
  rw [Session.analyze_eq]
  exact canReach_reading room lines 1 [] e (Nat.zero_le _)

theorem toOption_analyze (e : Engine) (room : Nat) (lines : List (Except FileFault String)) :
    (Session.analyze e room lines).toOption = Session.inTurn e lines := by
  obtain ⟨s, hs, ho⟩ := canReach_analyze e room lines
  obtain ⟨taken, hkept⟩ := exists_kept hs
  exact hkept.outcome ho

end

end Pipeline
end BenchMetrics
