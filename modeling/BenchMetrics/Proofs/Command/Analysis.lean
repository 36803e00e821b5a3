import BenchMetrics.Command.Run
import BenchMetrics.Proofs.Run.Completion
import BenchMetrics.Proofs.Run.Pipeline

/-! An analysis as a command. What it prints is settled by the settings and the file alone: neither
the room between reader and engine nor the order in which they go on shows. -/
namespace BenchMetrics.Command
open Relation

/-- What an analysis ends as by what its session came to. -/
def sessionOutcome (w : World) (json : Bool) : Except SessionError Summary → Outcome
  | .ok summary => .analyzed ⟨w.runId, w.now, summary⟩ json
  | .error e => .failed (sessionComplaint e)

/-- It reports this summary, and where there is none it fails and prints nothing. -/
def Reports (w : World) (json : Bool) (outcome : Outcome) : Option Summary → Prop
  | some summary => outcome = .analyzed ⟨w.runId, w.now, summary⟩ json
  | none => outcome.code = 1 ∧ outcome.output = ""

theorem reports_sessionOutcome (w : World) (json : Bool) (r : Except SessionError Summary) :
    Reports w json (sessionOutcome w json r) r.toOption := by
  cases r with
  | ok summary => rfl
  | error e => exact ⟨rfl, rfl⟩

/-- The command is an analysis with these options, and its settings build this engine. -/
structure Builds (w : World) (i : Invocation) (o : AnalyzeOptions) (e : Engine) : Prop where
  action : i.action = .analyze o
  engine : ∃ s, settings w i.config = .ok s ∧ (o.override s).validate = .ok () ∧
    Engine.new Standard.catalog (o.override s) = .ok e

section
variable {w : World} {i : Invocation} {o : AnalyzeOptions} {e : Engine}

theorem Builds.run_eq (h : Builds w i o e) : i.run w =
    if mostRoom < o.buffer then .noRoom
    else match recordLines o.input (w.file o.input) with
      | .ok lines => sessionOutcome w i.json (Session.analyze e o.buffer lines)
      | .error complaint => .failed complaint := by
  obtain ⟨s, hs, hvalid, he⟩ := h.engine
  simp only [Invocation.run, h.action, analyze, hs, hvalid, he, bind, Except.bind]
  by_cases hroom : mostRoom < o.buffer
  · rw [if_pos hroom, if_pos hroom]
  · rw [if_neg hroom, if_neg hroom]
    cases recordLines o.input (w.file o.input) with
    | error complaint => rfl
    | ok lines =>
      dsimp only
      cases Session.analyze e o.buffer lines <;> rfl

/-- Neither the room between reader and engine nor the order in which they go on shows in what an
analysis reports. As long as there can be so much room, every way to go on ends within four steps
for each line and two more, and is not stuck before; what it comes to is reported as the summary of
the lines one after the other, and as a failure if that has none. The program takes one of these
ways. Blank lines do not count, and a file that cannot be opened is a failure. -/
theorem analysis_unscheduled (h : Builds w i o e) :
    (o.buffer ≤ mostRoom →
      (∀ lines, recordLines o.input (w.file o.input) = .ok lines →
        Reports w i.json (i.run w) (Session.inTurn e lines) ∧
        (∃ t r, ReflTransGen (Pipeline.Step o.buffer) (Pipeline.start e lines) t ∧
          t.outcome? = some r ∧ i.run w = sessionOutcome w i.json r) ∧
        (∀ t, ReflTransGen (Pipeline.Step o.buffer) (Pipeline.start e lines) t →
          t.queued.length ≤ max o.buffer 1 ∧
          (t.outcome? = none → ∃ u, Pipeline.Step o.buffer t u) ∧
          ∀ r, t.outcome? = some r →
            Reports w i.json (sessionOutcome w i.json r) (Session.inTurn e lines)) ∧
        (∀ states, (Pipeline.start e lines :: states).IsChain (Pipeline.Step o.buffer) →
          states.length ≤ 4 * lines.length + 2) ∧
        Session.inTurn e (lines.filter (!Session.isBlank ·)) = Session.inTurn e lines) ∧
      ∀ complaint, recordLines o.input (w.file o.input) = .error complaint →
        Reports w i.json (i.run w) none) ∧
    (mostRoom < o.buffer → i.run w = .noRoom) := by
  refine ⟨fun hroom => ⟨fun lines hlines => ?_, fun complaint hlines => ?_⟩, fun hroom => ?_⟩
  · have hrun : i.run w = sessionOutcome w i.json (Session.analyze e o.buffer lines) := by
      rw [h.run_eq, if_neg (Nat.not_lt.mpr hroom), hlines]
    refine ⟨?_, ?_, ?_, ?_, Session.inTurn_filter e lines⟩
    · rw [hrun, ← Pipeline.toOption_analyze e o.buffer]
      exact reports_sessionOutcome w i.json _
    · obtain ⟨t, ht, ho⟩ := Pipeline.canReach_analyze e o.buffer lines
      exact ⟨t, _, ht, ho, hrun⟩
    · intro t ht
      obtain ⟨taken, hkept⟩ := Pipeline.exists_kept ht
      refine ⟨Pipeline.queued_le ht, Pipeline.exists_step o.buffer, fun r hr => ?_⟩
      rw [← hkept.outcome hr]
      exact reports_sessionOutcome w i.json r
    · exact fun states hstates => Pipeline.length_le_left hstates
  · rw [h.run_eq, if_neg (Nat.not_lt.mpr hroom), hlines]
    exact ⟨rfl, rfl⟩
  · rw [h.run_eq, if_pos hroom]

end

/-! ### A file that can be analysed, and the room for it -/

/-- Two records with a blank line between them. -/
def recordText : String :=
  "\x7b\"request\": \x7b\"start_perf_ns\": 10\x7d, " ++
    "\"responses\": [\x7b\"perf_ns\": 15\x7d]\x7d\n \n" ++
  "\x7b\"request\": \x7b\"start_perf_ns\": 20\x7d, " ++
    "\"responses\": [\x7b\"perf_ns\": 28\x7d]\x7d\n"

/-- A world with no variables and one file of records. -/
def recordWorld : World where
  env := fun _ => none
  file path := if path = "r" then .ok recordText.toUTF8 else .error .missing
  runId := ⟨0⟩
  now := ⟨0, 0, false⟩

def countOptions (buffer : Nat) : AnalyzeOptions :=
  ⟨"r", none, false, ["request_count"], none, buffer⟩

def countInvocation (buffer : Nat) : Invocation :=
  ⟨false, true, none, .analyze (countOptions buffer)⟩

def recordLinesRead : List (Except FileFault String) := Session.linesOf recordText.toUTF8

/-- The engine that counts requests is built, whatever the room, and has a summary of the file. -/
theorem exists_builds (buffer : Nat) :
    ∃ e summary, Builds recordWorld (countInvocation buffer) (countOptions buffer) e ∧
      Session.inTurn e recordLinesRead = some summary := by
  let counting : Settings := { Settings.default with selection := some ["request_count"] }
  obtain ⟨e, he⟩ : ∃ e, Engine.new Standard.catalog counting = .ok e := ⟨_, rfl⟩
  have hselected :
      Engine.withSelection Standard.catalog [Standard.requestCount] counting = .ok e := he
  have herror : (Session.readFrom 1 recordLinesRead).error? = none := by decide +kernel
  have haccepted : (Engine.new Standard.catalog counting).map
      (fun e => (e.processAll (Session.readFrom 1 recordLinesRead).records).2) = .ok (.ok ()) := by
    decide +kernel
  rw [he, Except.map, Except.ok.injEq] at haccepted
  refine ⟨e, ?_⟩
  rcases hrun : e.processAll (Session.readFrom 1 recordLinesRead).records with ⟨f, err | _⟩
  · rw [hrun] at haccepted
    cases haccepted
  · have hstopped := Standard.concluded_stopped hselected
      (Session.readFrom 1 recordLinesRead).records
    rw [Standard.concluded, Engine.after_of_processAll hrun] at hstopped
    obtain ⟨results, hfinish⟩ := Engine.finish_ok hstopped .completed
    have hsummary : Session.inTurn e recordLinesRead = (f.finish .completed).toOption := by
      rw [Session.inTurn_of_records herror, hrun]
    rw [hfinish] at hsummary
    exact ⟨_, ⟨rfl, .default, rfl, rfl, he⟩, hsummary⟩

/-- Without room asked for there is room for one record, and the file is reported. -/
theorem analysis_unscheduled_without_room :
    Invocation.ofWords recordWorld.env
        ["analyze", "r", "--json", "--metrics", "request_count", "--buffer", "0"] =
      .ok (countInvocation 0) ∧
    ∃ e summary, Builds recordWorld (countInvocation 0) (countOptions 0) e ∧ 0 ≤ mostRoom ∧
      (countInvocation 0).run recordWorld =
        .analyzed ⟨recordWorld.runId, recordWorld.now, summary⟩ true ∧
      (∀ t, ReflTransGen (Pipeline.Step 0) (Pipeline.start e recordLinesRead) t →
        t.queued.length ≤ 1 ∧ ∀ r, t.outcome? = some r → sessionOutcome recordWorld true r =
          .analyzed ⟨recordWorld.runId, recordWorld.now, summary⟩ true) ∧
      ∀ states, (Pipeline.start e recordLinesRead :: states).IsChain (Pipeline.Step 0) →
        states.length ≤ 14 := by
  refine ⟨by decide +kernel, ?_⟩
  obtain ⟨e, summary, hbuilds, hsummary⟩ := exists_builds 0
  obtain ⟨hreports, _, hevery, hbound, _⟩ :=
    ((analysis_unscheduled hbuilds).1 (Nat.zero_le _)).1 recordLinesRead rfl
  rw [hsummary] at hreports hevery
  have hlength : recordLinesRead.length = 3 := by decide +kernel
  rw [hlength] at hbound
  refine ⟨e, summary, hbuilds, Nat.zero_le _, hreports, fun t ht => ?_, hbound⟩
  obtain ⟨hqueued, _, houtcome⟩ := hevery t ht
  exact ⟨hqueued, houtcome⟩

/-- One more than there can be room for, and the file is not reported although there is a summary
of it. -/
theorem good_file_unreported :
    Invocation.ofWords recordWorld.env ["analyze", "r", "--json", "--metrics", "request_count",
        "--buffer=2305843009213693952"] = .ok (countInvocation 2305843009213693952) ∧
    ∃ e summary,
      Builds recordWorld (countInvocation 2305843009213693952)
        (countOptions 2305843009213693952) e ∧
      recordLines "r" (recordWorld.file "r") = .ok recordLinesRead ∧
      Session.inTurn e recordLinesRead = some summary ∧
      ((countInvocation 2305843009213693952).run recordWorld).code = 101 ∧
      ¬ Reports recordWorld true ((countInvocation 2305843009213693952).run recordWorld)
        (Session.inTurn e recordLinesRead) := by
  refine ⟨by decide +kernel, ?_⟩
  obtain ⟨e, summary, hbuilds, hsummary⟩ := exists_builds 2305843009213693952
  have hstopped : (countInvocation 2305843009213693952).run recordWorld = .noRoom := by
    rw [hbuilds.run_eq, if_pos (by decide)]
  refine ⟨e, summary, hbuilds, rfl, hsummary, by rw [hstopped]; rfl, ?_⟩
  rw [hstopped, hsummary]
  intro hreports
  cases hreports

end BenchMetrics.Command
