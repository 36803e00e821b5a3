import BenchMetrics.Run.Delivery
import BenchMetrics.Proofs.Run.Policy
import BenchMetrics.Proofs.Run.Inertness

/-! Delivery to the consumer. Whatever the order in which records are sent, the channel is closed,
the stop is asked for and the consumer goes on, the records that it takes are the first ones sent,
in order, and what it ends with is what `Engine.consume` answers for some moment of the stop. -/
namespace BenchMetrics

theorem visibleFrom_iff {moment : Option Nat} {n : Nat} :
    visibleFrom moment n = true ↔ ∃ k ∈ moment, k ≤ n := by
  cases moment <;> simp [visibleFrom]

/-- What a summary says when its run was cancelled. -/
def Summary.cut (s : Summary) : Summary :=
  { s with failures := { s.failures with wasCancelled := true }, wasPartial := true }

namespace Engine

theorem finish_cancelled (e : Engine) :
    e.finish .cancelled = (e.finish .completed).map Summary.cut := by
  rw [finish, finish]
  cases (summarizeFrom [] e.metrics).stopped with
  | some err => rfl
  | none =>
    dsimp only
    cases (summarizeFrom [] e.metrics).metrics.mapM fun a =>
      MetricResult.ofValue a.descriptor a.value e.settings.displayUnit <;> rfl

/-- What a summary says of its ending comes from the ending and the failures alone. -/
theorem marks_of_finish {e : Engine} {ending : Ending} {s : Summary}
    (h : e.finish ending = .ok s) :
    s.failures = e.reportAt ending ∧ s.wasPartial = decide (ending = .cancelled) := by
  have hself := (⟨rfl, rfl, rfl⟩ : SameWork e e).finish ending ending
  rw [h, Except.map, Except.ok.injEq] at hself
  exact ⟨congrArg Summary.failures hself, congrArg Summary.wasPartial hself⟩

/-- It was built, and handed some records. -/
def Arises (e : Engine) : Prop :=
  ∃ c selection settings start records,
    withSelection c selection settings = .ok start ∧ e = start.after records

theorem after_of_processAll {e f : Engine} {rs : List Record}
    (h : e.processAll rs = (f, .ok ())) : e.after rs = f := by
  induction rs generalizing e with
  | nil => exact congrArg Prod.fst h
  | cons r rs ih =>
    rw [processAll] at h
    rcases hr : e.process r with ⟨g, err | _⟩
    · rw [hr] at h
      cases h
    · rw [hr] at h
      have hafter : e.after (r :: rs) = g.after rs := by rw [after, List.foldl_cons, hr, after]
      rw [hafter, ih h]

theorem Arises.processAll {e f : Engine} {rs : List Record} (he : e.Arises)
    (h : e.processAll rs = (f, .ok ())) : f.Arises := by
  obtain ⟨c, selection, settings, start, records, hstart, rfl⟩ := he
  refine ⟨c, selection, settings, start, records ++ rs, hstart, ?_⟩
  rw [← after_of_processAll h, after, after, after, List.foldl_append]

theorem Arises.wasCancelled {e : Engine} (he : e.Arises) : e.failures.wasCancelled = false := by
  obtain ⟨c, selection, settings, start, records, hstart, rfl⟩ := he
  have hempty : start.failures = .empty := by rw [(withSelection_ok hstart).2.2]
  rw [(counts_after start records).2.2.2, hempty]
  exact FailureTally.wasCancelled_ofFailures _

/-! ### What the consumer answers -/

/-- The records that a consumer takes, and how they end, when none is refused. -/
def seen (moment : Option Nat) (records : List Record) : List Record :=
  match moment with
  | some k => records.take k
  | none => records

def endingAt (moment : Option Nat) (records : List Record) : Ending :=
  if visibleFrom moment records.length then .cancelled else .completed

/-- The consumer over records that come before any stop, and then over the others. -/
theorem consumeFrom_append {stop : Nat → Bool} (rest : List Record) {before : List Record}
    {n : Nat} (e : Engine) (h : ∀ i < before.length, stop (n + i) = false) :
    e.consumeFrom stop n (before ++ rest) =
      match e.processAll before with
      | (f, .ok ()) => f.consumeFrom stop (n + before.length) rest
      | (_, .error err) => .error err := by
  induction before generalizing n e with
  | nil => rfl
  | cons r before ih =>
    have hnow : stop n = false := h 0 (Nat.succ_pos _)
    have hlater : ∀ i < before.length, stop (n + 1 + i) = false := by
      intro i hi
      have hi' := h (i + 1) (Nat.succ_lt_succ hi)
      rwa [Nat.add_comm i 1, ← Nat.add_assoc] at hi'
    rw [List.cons_append, consumeFrom, hnow, processAll]
    rcases e.process r with ⟨f, err | _⟩
    · rfl
    · have hlength : n + (r :: before).length = n + 1 + before.length := by
        rw [List.length_cons]
        omega
      rw [hlength]
      exact ih f hlater

theorem consumeFrom_of_visible {stop : Nat → Bool} {n : Nat} (e : Engine) (h : stop n = true)
    (rest : List Record) : e.consumeFrom stop n rest = e.finish .cancelled := by
  cases rest with
  | nil => rw [consumeFrom, if_pos h]
  | cons r rest => rw [consumeFrom, if_pos h]

/-- The consumer takes the records before the stop one by one, and finishes as cancelled if there was
one and as completed if not, or with the error of the record that was refused. -/
theorem consume_eq (e : Engine) (records : List Record) (moment : Option Nat) :
    e.consume records (visibleFrom moment) =
      match e.processAll (seen moment records) with
      | (f, .ok ()) => f.finish (endingAt moment records)
      | (_, .error err) => .error err := by
  cases hvisible : visibleFrom moment records.length with
  | true =>
    obtain ⟨k, rfl, hk⟩ := visibleFrom_iff.mp hvisible
    have hlength : (records.take k).length = k := List.length_take_of_le hk
    have hbefore : ∀ i < (records.take k).length, visibleFrom (some k) (0 + i) = false := by
      intro i hi
      exact decide_eq_false (by omega)
    have hsplit := consumeFrom_append (records.drop k) e hbefore
    rw [List.take_append_drop] at hsplit
    rw [consume, hsplit, endingAt, if_pos hvisible, seen]
    rcases e.processAll (records.take k) with ⟨f, err | _⟩
    · rfl
    · have hnow : visibleFrom (some k) (0 + (records.take k).length) = true :=
        decide_eq_true (by omega)
      exact consumeFrom_of_visible f hnow _
  | false =>
    have hseen : seen moment records = records := by
      cases moment with
      | none => rfl
      | some k =>
        have hk := of_decide_eq_false hvisible
        exact List.take_of_length_le (by omega)
    have hbefore : ∀ i < records.length, visibleFrom moment (0 + i) = false := by
      intro i hi
      cases moment with
      | none => rfl
      | some k =>
        have hk := of_decide_eq_false hvisible
        exact decide_eq_false (by omega)
    have hsplit := consumeFrom_append [] e hbefore
    rw [List.append_nil] at hsplit
    rw [consume, hsplit, endingAt, hvisible, hseen]
    rcases e.processAll records with ⟨f, err | _⟩
    · rfl
    · dsimp only
      rw [consumeFrom, Nat.zero_add, hvisible]

/-- A cancelled run is the completed run over the records before the stop, marked. -/
theorem consume_cut (e : Engine) {records : List Record} {k : Nat} (hk : k ≤ records.length) :
    e.consume records (visibleFrom (some k)) =
      (e.consume (records.take k) (visibleFrom none)).map Summary.cut := by
  have hvisible : visibleFrom (some k) records.length = true := decide_eq_true hk
  have hending : endingAt (some k) records = .cancelled := by rw [endingAt, if_pos hvisible]
  have hnever : endingAt none (records.take k) = .completed := rfl
  rw [consume_eq, consume_eq, hending, hnever, seen, seen]
  rcases e.processAll (records.take k) with ⟨f, err | _⟩
  · rfl
  · exact finish_cancelled f

/-- The marks of a summary say whether the run was cancelled. -/
theorem flags_of_consume {e : Engine} (he : e.Arises) {records : List Record}
    {moment : Option Nat} {s : Summary} (h : e.consume records (visibleFrom moment) = .ok s) :
    s.wasPartial = visibleFrom moment records.length ∧
      s.failures.wasCancelled = visibleFrom moment records.length := by
  rw [consume_eq] at h
  rcases hrun : e.processAll (seen moment records) with ⟨f, err | _⟩
  · rw [hrun] at h
    cases h
  rw [hrun] at h
  obtain ⟨hreport, hpartial⟩ := marks_of_finish h
  have hf : f.failures.wasCancelled = false := (he.processAll hrun).wasCancelled
  rw [hreport, hpartial, reportAt, endingAt]
  cases visibleFrom moment records.length with
  | true => exact ⟨rfl, rfl⟩
  | false => exact ⟨rfl, hf⟩

end Engine

namespace Delivery

def Event.isTurn : Event → Bool
  | .turn => true
  | .send _ | .close | .stop => false

namespace State

variable {e : Engine} {s t : State}

/-- All that a turn can do. -/
inductive Turns (s : State) : State → Prop where
  | cancelled {f : Engine} (hphase : s.phase = .look f) (hstop : s.stopAsked = true) :
    Turns s { s with phase := .done (f.finish .cancelled) }
  | looked {f : Engine} (hphase : s.phase = .look f) (hstop : s.stopAsked = false) :
    Turns s { s with phase := .take f }
  | accepted {f g : Engine} {r : Record} {rs : List Record} (hphase : s.phase = .take f)
    (hqueued : s.queued = r :: rs) (hr : f.process r = (g, .ok ())) :
    Turns s { s with phase := .look g, queued := rs, taken := s.taken ++ [r] }
  | refused {f g : Engine} {r : Record} {rs : List Record} {err : MetricError}
    (hphase : s.phase = .take f) (hqueued : s.queued = r :: rs)
    (hr : f.process r = (g, .error err)) :
    Turns s { s with phase := .done (.error err), queued := rs, taken := s.taken ++ [r] }
  | waited {f : Engine} (hphase : s.phase = .take f) (hqueued : s.queued = [])
    (hclosed : s.closed = false) : Turns s { s with phase := .look f }
  | completed {f : Engine} (hphase : s.phase = .take f) (hqueued : s.queued = [])
    (hclosed : s.closed = true) : Turns s { s with phase := .done (f.finish .completed) }
  | done {result : Except MetricError Summary} (hphase : s.phase = .done result) : Turns s s

theorem turns (s : State) : Turns s s.turn := by
  rw [turn]
  split
  · rename_i f hphase
    by_cases hstop : s.stopAsked = true
    · rw [if_pos hstop]
      exact .cancelled hphase hstop
    · rw [if_neg hstop]
      exact .looked hphase (Bool.not_eq_true _ ▸ hstop)
  · rename_i f hphase
    split
    · rename_i r rs hqueued
      rcases hr : f.process r with ⟨g, err | _⟩
      · exact .refused hphase hqueued hr
      · exact .accepted hphase hqueued hr
    · rename_i hqueued
      by_cases hclosed : s.closed = true
      · rw [if_pos hclosed]
        exact .completed hphase hqueued hclosed
      · rw [if_neg hclosed]
        exact .waited hphase hqueued (Bool.not_eq_true _ ▸ hclosed)
  · rename_i result hphase
    exact .done hphase

theorem run_cons (s : State) (ev : Event) (events : List Event) :
    s.run (ev :: events) = (s.step ev).run events := rfl

theorem run_append (s : State) (events later : List Event) :
    s.run (events ++ later) = (s.run events).run later := List.foldl_append

theorem run_snoc (s : State) (events : List Event) (ev : Event) :
    s.run (events ++ [ev]) = (s.run events).step ev := List.foldl_append

/-! ### What every schedule keeps -/

/-- How a consumer that started from `e` came to its result. -/
inductive Ended (e : Engine) (s : State) : Except MetricError Summary → Prop where
  | cancelled {f : Engine} (hstop : s.stopAsked = true)
    (htaken : e.processAll s.taken = (f, .ok ())) : Ended e s (f.finish .cancelled)
  | completed {f : Engine} (hclosed : s.closed = true) (hqueued : s.queued = [])
    (htaken : e.processAll s.taken = (f, .ok ())) : Ended e s (f.finish .completed)
  | refused {before : List Record} {r : Record} {f g : Engine} {err : MetricError}
    (htaken : s.taken = before ++ [r]) (hbefore : e.processAll before = (f, .ok ()))
    (hr : f.process r = (g, .error err)) : Ended e s (.error err)

/-- No record is lost, doubled or moved: those taken and those that wait are those sent. The engine
is the one after the records taken, and the consumer stops at the first that it refuses. -/
structure Faithful (s : State) (e : Engine) : Prop where
  inOrder : s.taken ++ s.queued = s.sent
  working : ∀ f, s.phase = .look f ∨ s.phase = .take f → e.processAll s.taken = (f, .ok ())
  ended : ∀ result, s.phase = .done result → Ended e s result

theorem Faithful.of_working {f : Engine} (horder : s.taken ++ s.queued = s.sent)
    (hphase : s.phase = .look f ∨ s.phase = .take f)
    (hf : e.processAll s.taken = (f, .ok ())) : Faithful s e where
  inOrder := horder
  working := by
    intro g hg
    rcases hphase with hphase | hphase <;> rw [hphase] at hg <;> rcases hg with hg | hg <;>
      cases hg <;> exact hf
  ended := by
    intro result hresult
    rcases hphase with hphase | hphase <;> rw [hphase] at hresult <;> cases hresult

theorem Faithful.of_ended {result : Except MetricError Summary}
    (horder : s.taken ++ s.queued = s.sent) (hphase : s.phase = .done result)
    (h : Ended e s result) : Faithful s e where
  inOrder := horder
  working := by
    intro g hg
    rw [hphase] at hg
    rcases hg with hg | hg <;> cases hg
  ended := by
    intro result' hresult
    rw [hphase] at hresult
    cases hresult
    exact h

theorem faithful_start (e : Engine) : Faithful (start e) e := .of_working rfl (.inl rfl) rfl

theorem Turns.faithful (hturns : Turns s t) (h : Faithful s e) : Faithful t e := by
  -- a record that is taken moves from the front of the queue to the end of those taken
  have hmoved : ∀ {r rs}, s.queued = r :: rs → s.taken ++ [r] ++ rs = s.sent := by
    intro r rs hqueued
    rw [← h.inOrder, hqueued, List.append_assoc, List.singleton_append]
  cases hturns with
  | cancelled hphase hstop =>
    exact .of_ended h.inOrder rfl (.cancelled hstop (h.working _ (.inl hphase)))
  | looked hphase =>
    exact .of_working h.inOrder (.inr rfl) (h.working _ (.inl hphase))
  | accepted hphase hqueued hr =>
    have hbefore := h.working _ (.inr hphase)
    exact .of_working (hmoved hqueued) (.inl rfl) ((Engine.processAll_snoc hbefore _).trans hr)
  | refused hphase hqueued hr =>
    exact .of_ended (hmoved hqueued) rfl (.refused rfl (h.working _ (.inr hphase)) hr)
  | waited hphase =>
    exact .of_working h.inOrder (.inl rfl) (h.working _ (.inr hphase))
  | completed hphase hqueued hclosed =>
    exact .of_ended h.inOrder rfl (.completed hclosed hqueued (h.working _ (.inr hphase)))
  | done => exact h

theorem Faithful.step (h : Faithful s e) (ev : Event) : Faithful (s.step ev) e := by
  cases ev with
  | turn => exact (turns s).faithful h
  | send r =>
    rw [State.step]
    split
    · exact h
    · rename_i hopen
      refine ⟨?_, h.working, ?_⟩
      · rw [← h.inOrder, List.append_assoc]
      · -- a consumer that is done is sent nothing
        intro result hresult
        have hphase : s.phase = .done result := hresult
        rw [isDone, hphase, Bool.or_true] at hopen
        exact absurd rfl hopen
  | close =>
    refine ⟨h.inOrder, h.working, ?_⟩
    intro result hresult
    cases h.ended result hresult with
    | cancelled hstop htaken => exact .cancelled hstop htaken
    | completed _ hqueued htaken => exact .completed rfl hqueued htaken
    | refused htaken hbefore hr => exact .refused htaken hbefore hr
  | stop =>
    refine ⟨h.inOrder, h.working, ?_⟩
    intro result hresult
    cases h.ended result hresult with
    | cancelled _ htaken => exact .cancelled rfl htaken
    | completed hclosed hqueued htaken => exact .completed hclosed hqueued htaken
    | refused htaken hbefore hr => exact .refused htaken hbefore hr

theorem faithful_run (e : Engine) (events : List Event) :
    Faithful ((start e).run events) e := by
  induction events using List.reverseRecOn with
  | nil => exact faithful_start e
  | append_singleton events ev ih =>
    rw [run_snoc]
    exact ih.step ev

/-- The result is the consumer's answer over the records sent: for a stop after those taken if it
was cancelled, and for none if not. -/
theorem Faithful.answer (h : Faithful s e) {result : Except MetricError Summary}
    (hresult : s.phase = .done result) :
    ∃ moment, (∀ k ∈ moment, s.stopAsked = true ∧ k = s.taken.length) ∧
      result = e.consume s.sent (visibleFrom moment) := by
  cases h.ended result hresult with
  | @cancelled f hstop htaken =>
    refine ⟨some s.taken.length, ?_, ?_⟩
    · intro k hk
      cases hk
      exact ⟨hstop, rfl⟩
    · have hseen : Engine.seen (some s.taken.length) s.sent = s.taken := by
        rw [Engine.seen, ← h.inOrder, List.take_left]
      have hvisible : visibleFrom (some s.taken.length) s.sent.length = true := by
        apply decide_eq_true
        rw [← h.inOrder, List.length_append]
        exact Nat.le_add_right _ _
      rw [Engine.consume_eq, hseen, htaken, Engine.endingAt, if_pos hvisible]
  | @completed f hclosed hqueued htaken =>
    have hsent : s.sent = s.taken := by rw [← h.inOrder, hqueued, List.append_nil]
    refine ⟨none, by simp, ?_⟩
    rw [Engine.consume_eq, Engine.seen, hsent, htaken]
    rfl
  | @refused before r f g err htaken hbefore hr =>
    refine ⟨none, by simp, ?_⟩
    have hrefused : e.processAll s.taken = (g, .error err) := by
      rw [htaken, Engine.processAll_snoc hbefore, hr]
    have hsplit := @Engine.consumeFrom_append (visibleFrom none) s.queued s.taken 0 e
      fun _ _ => rfl
    rw [h.inOrder, hrefused] at hsplit
    exact hsplit.symm

/-! ### The stop is obeyed, and a consumer comes to an end -/

/-- The records taken, and the one that a consumer takes which has just looked. -/
def reach (s : State) : Nat :=
  match s.phase with
  | .take _ => s.taken.length + 1
  | .look _ | .done _ => s.taken.length

theorem taken_le_reach (s : State) : s.taken.length ≤ s.reach := by
  rw [reach]
  split <;> omega

theorem Turns.stopAsked_eq (h : Turns s t) : t.stopAsked = s.stopAsked := by cases h <;> rfl

theorem Turns.closed_eq (h : Turns s t) : t.closed = s.closed := by cases h <;> rfl

theorem Turns.reach_le (h : Turns s t) (hstop : s.stopAsked = true) : t.reach ≤ s.reach := by
  cases h with
  | looked _ hopen => exact absurd (hstop.symm.trans hopen) (by decide)
  | accepted hphase | refused hphase => simp [reach, hphase]
  | cancelled hphase | completed hphase | waited hphase => simp [reach, hphase]
  | done => exact le_rfl

theorem step_of_stopAsked (hstop : s.stopAsked = true) (ev : Event) :
    (s.step ev).stopAsked = true ∧ (s.step ev).reach ≤ s.reach := by
  cases ev with
  | turn => exact ⟨(turns s).stopAsked_eq.trans hstop, (turns s).reach_le hstop⟩
  | send r =>
    rw [step]
    split <;> exact ⟨hstop, le_rfl⟩
  | close => exact ⟨hstop, le_rfl⟩
  | stop => exact ⟨rfl, le_rfl⟩

/-- Once a stop is asked for, a consumer that is about to look takes no further record. -/
theorem taken_run_le (hstop : s.stopAsked = true) (more : List Event) :
    (s.run more).taken.length ≤ s.reach := by
  have hrun : (s.run more).stopAsked = true ∧ (s.run more).reach ≤ s.reach := by
    induction more using List.reverseRecOn with
    | nil => exact ⟨hstop, le_rfl⟩
    | append_singleton more ev ih =>
      rw [run_snoc]
      obtain ⟨hstop', hle⟩ := step_of_stopAsked ih.1 ev
      exact ⟨hstop', hle.trans ih.2⟩
  exact (taken_le_reach _).trans hrun.2

/-- A count that each turn lowers and no other event raises runs out, and the consumer is done. -/
theorem isDone_run {P : State → Prop} {left : State → Nat}
    (hstep : ∀ s ev, P s → P (s.step ev) ∧ left (s.step ev) ≤ left s)
    (hturn : ∀ s, P s → left s.turn ≤ left s - 1)
    (hnone : ∀ s, P s → left s = 0 → s.isDone = true) {more : List Event} (h : P s)
    (hturns : left s ≤ more.countP Event.isTurn) : (s.run more).isDone = true := by
  induction more generalizing s with
  | nil => exact hnone s h (Nat.le_zero.mp hturns)
  | cons ev more ih =>
    rw [run_cons]
    obtain ⟨hkept, hle⟩ := hstep s ev h
    apply ih hkept
    cases ev with
    | turn =>
      have hless := hturn s h
      rw [List.countP_cons_of_pos rfl] at hturns
      rw [step]
      omega
    | send _ | close | stop =>
      rw [List.countP_cons_of_neg Bool.false_ne_true] at hturns
      exact hle.trans hturns

/-- Turns to the end, one more than `looking` or `taking` for a consumer that does so. -/
def turnsLeft (s : State) (looking taking : Nat) : Nat :=
  match s.phase with
  | .look _ => looking + 1
  | .take _ => taking + 1
  | .done _ => 0

theorem turnsLeft_le {looking taking n : Nat} (hlooking : looking < n) (htaking : taking < n) :
    s.turnsLeft looking taking ≤ n := by
  rw [turnsLeft]
  split <;> omega

theorem isDone_of_turnsLeft {looking taking : Nat} (h : s.turnsLeft looking taking = 0) :
    s.isDone = true := by
  rw [turnsLeft] at h
  rw [isDone]
  split at h
  · cases h
  · cases h
  · rename_i result hphase
    rw [hphase]

/-- A consumer looks for the stop in this turn or the next. -/
theorem isDone_of_stopAsked (hstop : s.stopAsked = true) {more : List Event}
    (hturns : 2 ≤ more.countP Event.isTurn) : (s.run more).isDone = true := by
  have hturn : ∀ s : State, s.stopAsked = true → s.turn.turnsLeft 0 1 ≤ s.turnsLeft 0 1 - 1 := by
    intro s hs
    have h := turns s
    generalize s.turn = t at h
    cases h with
    | looked _ hopen => exact absurd (hs.symm.trans hopen) (by decide)
    | cancelled hphase | accepted hphase | refused hphase | waited hphase | completed hphase
    | done hphase => simp [turnsLeft, hphase]
  have hstep : ∀ (s : State) ev, s.stopAsked = true →
      (s.step ev).stopAsked = true ∧ (s.step ev).turnsLeft 0 1 ≤ s.turnsLeft 0 1 := by
    intro s ev hs
    refine ⟨(step_of_stopAsked hs ev).1, ?_⟩
    cases ev with
    | turn => exact (hturn s hs).trans (Nat.sub_le _ _)
    | send r =>
      rw [step]
      split <;> exact le_rfl
    | close | stop => exact le_rfl
  have hle : s.turnsLeft 0 1 ≤ 2 := turnsLeft_le (by omega) (by omega)
  exact isDone_run hstep hturn (fun _ _ => isDone_of_turnsLeft) hstop (hle.trans hturns)

/-- A closed channel is read empty in two turns for each record, and found empty in two more. -/
theorem isDone_of_closed (hclosed : s.closed = true) {more : List Event}
    (hturns : 2 * s.queued.length + 2 ≤ more.countP Event.isTurn) :
    (s.run more).isDone = true := by
  let left (s : State) := s.turnsLeft (2 * s.queued.length + 1) (2 * s.queued.length)
  have hturn : ∀ s : State, s.closed = true → left s.turn ≤ left s - 1 := by
    intro s hs
    have h := turns s
    generalize s.turn = t at h
    cases h with
    | waited _ _ hopen => exact absurd (hs.symm.trans hopen) (by decide)
    | accepted hphase hqueued | refused hphase hqueued =>
      simp [left, turnsLeft, hphase, hqueued, Nat.mul_add]
    | cancelled hphase | looked hphase | completed hphase | done hphase =>
      simp [left, turnsLeft, hphase]
  have hstep : ∀ (s : State) ev, s.closed = true →
      (s.step ev).closed = true ∧ left (s.step ev) ≤ left s := by
    intro s ev hs
    cases ev with
    | turn => exact ⟨(turns s).closed_eq.trans hs, (hturn s hs).trans (Nat.sub_le _ _)⟩
    | send r =>
      rw [step, hs, Bool.true_or, if_pos rfl]
      exact ⟨hs, le_rfl⟩
    | close => exact ⟨rfl, le_rfl⟩
    | stop => exact ⟨hs, le_rfl⟩
  have hle : left s ≤ 2 * s.queued.length + 2 := turnsLeft_le (by omega) (by omega)
  exact isDone_run hstep hturn (fun _ _ => isDone_of_turnsLeft) hclosed (hle.trans hturns)

/-! ### Every moment of the stop has its schedule -/

theorem run_sends (e : Engine) (records : List Record) :
    (start e).run (records.map .send) = ⟨.look e, records, false, false, records, []⟩ := by
  induction records using List.reverseRecOn with
  | nil => rfl
  | append_singleton records r ih =>
    rw [List.map_append, run_append, ih]
    rfl

/-- Over a closed channel, a stop that is asked for right before the consumer looks for it. -/
theorem exists_run (stop : Nat → Bool) (queued : List Record) (f : Engine) (n : Nat)
    (sent taken : List Record) :
    ∃ events, ((State.mk (.look f) queued true false sent taken).run events).phase =
        .done (f.consumeFrom stop n queued) ∧
      ((State.mk (.look f) queued true false sent taken).run events).sent = sent := by
  induction queued generalizing f n taken with
  | nil =>
    rw [Engine.consumeFrom]
    by_cases hstop : stop n = true
    · rw [if_pos hstop]
      exact ⟨[.stop, .turn], rfl, rfl⟩
    · rw [if_neg hstop]
      exact ⟨[.turn, .turn], rfl, rfl⟩
  | cons r queued ih =>
    rw [Engine.consumeFrom]
    by_cases hstop : stop n = true
    · rw [if_pos hstop]
      exact ⟨[.stop, .turn], rfl, rfl⟩
    · rw [if_neg hstop]
      have htwo : (State.mk (.look f) (r :: queued) true false sent taken).run [.turn, .turn] =
          ⟨.after (f.process r), queued, true, false, sent, taken ++ [r]⟩ := rfl
      rcases hr : f.process r with ⟨g, err | _⟩
      · rw [hr] at htwo
        refine ⟨[.turn, .turn], ?_, ?_⟩
        · rw [htwo]
          rfl
        · rw [htwo]
      · rw [hr] at htwo
        obtain ⟨events, hphase, hsent⟩ := ih g (n + 1) (taken ++ [r])
        refine ⟨[.turn, .turn] ++ events, ?_, ?_⟩
        · rw [run_append, htwo]
          exact hphase
        · rw [run_append, htwo]
          exact hsent

/-- Every answer of the consumer is the result of some schedule. -/
theorem exists_schedule (e : Engine) (records : List Record) (stop : Nat → Bool) :
    ∃ events, ((start e).run events).sent = records ∧
      ((start e).run events).phase = .done (e.consume records stop) := by
  obtain ⟨events, hphase, hsent⟩ := exists_run stop records e 0 records []
  have hclosed : (start e).run (records.map .send ++ [.close]) =
      ⟨.look e, records, true, false, records, []⟩ := by
    rw [run_snoc, run_sends]
    rfl
  refine ⟨records.map .send ++ [.close] ++ events, ?_, ?_⟩
  · rw [run_append, hclosed]
    exact hsent
  · rw [run_append, hclosed]
    exact hphase

end State

/-- The consumer takes the records before the stop, all of them if there is none, in order, and
finishes as cancelled or as completed; or it answers the error of the first one refused. A cancelled
summary is the completed one over the same records but for its marks. In every schedule the records
taken are the first ones sent, and the result is the answer for a stop after those taken, or for
none; each answer has its schedule. Once a stop is asked for, at most the record is taken that the
consumer has just turned to; then, or on a closed channel, a consumer that goes on ends. -/
theorem consumer_faithful {e : Engine} (he : e.Arises) :
    (∀ records moment, e.consume records (visibleFrom moment) =
      match e.processAll (Engine.seen moment records) with
      | (f, .ok ()) => f.finish (Engine.endingAt moment records)
      | (_, .error err) => .error err) ∧
    (∀ records k, k ≤ records.length → e.consume records (visibleFrom (some k)) =
      (e.consume (records.take k) (visibleFrom none)).map Summary.cut) ∧
    (∀ records moment s, e.consume records (visibleFrom moment) = .ok s →
      (s.wasPartial = true ↔ ∃ k ∈ moment, k ≤ records.length) ∧
      (s.failures.wasCancelled = true ↔ ∃ k ∈ moment, k ≤ records.length)) ∧
    (∀ records moment, ∃ events, ((State.start e).run events).sent = records ∧
      ((State.start e).run events).phase = .done (e.consume records (visibleFrom moment))) ∧
    ∀ events s, (State.start e).run events = s →
      s.Faithful e ∧
      (∀ result, s.phase = .done result →
        ∃ moment, (∀ k ∈ moment, s.stopAsked = true ∧ k = s.taken.length) ∧
          result = e.consume s.sent (visibleFrom moment)) ∧
      ∀ more, (s.stopAsked = true → (s.run more).taken.length ≤ s.reach ∧
          (2 ≤ more.countP Event.isTurn → (s.run more).isDone = true)) ∧
        (s.closed = true → 2 * s.queued.length + 2 ≤ more.countP Event.isTurn →
          (s.run more).isDone = true) := by
  refine ⟨e.consume_eq, fun records k hk => e.consume_cut hk, ?_, ?_, ?_⟩
  · intro records moment s hs
    obtain ⟨hpartial, hcancelled⟩ := Engine.flags_of_consume he hs
    rw [hpartial, hcancelled]
    exact ⟨visibleFrom_iff, visibleFrom_iff⟩
  · intro records moment
    exact State.exists_schedule e records (visibleFrom moment)
  · rintro events s rfl
    have hfaithful := State.faithful_run e events
    refine ⟨hfaithful, fun result hresult => hfaithful.answer hresult, ?_⟩
    intro more
    refine ⟨fun hstop => ⟨State.taken_run_le hstop more, ?_⟩, ?_⟩
    · exact fun hturns => State.isDone_of_stopAsked hstop hturns
    · exact fun hclosed hturns => State.isDone_of_closed hclosed hturns

/-- An engine that has seen records already, four more on the channel, and a stop that is asked for
after one of them is taken, before the channel is closed. -/
theorem consumer_faithful_stopped :
    ∃ e : Engine, e.Arises ∧ e.processed = 2 ∧
      ∃ s, (State.start e).run (Engine.mixed.map .send ++ [.turn, .turn, .stop, .close]) = s ∧
        s.taken = Engine.mixed.take 1 ∧ s.queued = Engine.mixed.drop 1 ∧ s.Faithful e ∧
        (s.run [.turn, .turn]).taken.length ≤ 1 ∧ (s.run [.turn, .turn]).isDone = true ∧
        e.consume Engine.mixed (visibleFrom (some 1)) =
          (e.consume (Engine.mixed.take 1) (visibleFrom none)).map Summary.cut := by
  obtain ⟨start, hstart⟩ : ∃ start,
      Engine.withSelection Standard.catalog Standard.catalog.tags .default = .ok start := ⟨_, rfl⟩
  have he : (start.after (Engine.mixed.drop 2)).Arises := ⟨_, _, _, start, _, hstart, rfl⟩
  have hnew : start.processed = 0 := by rw [(Engine.withSelection_ok hstart).2.2]
  obtain ⟨_, hcut, _, _, hschedules⟩ := consumer_faithful he
  obtain ⟨hfaithful, _, hmore⟩ :=
    hschedules (Engine.mixed.map .send ++ [.turn, .turn, .stop, .close]) _ rfl
  obtain ⟨hle, hdone⟩ := (hmore [.turn, .turn]).1 rfl
  refine ⟨_, he, ?_, _, rfl, rfl, rfl, hfaithful, ?_, ?_, hcut _ 1 (by decide)⟩
  · rw [(Engine.counts_after start _).1, hnew]
    rfl
  · exact hle
  · exact hdone (by decide)

end Delivery
end BenchMetrics
