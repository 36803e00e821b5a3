import BenchMetrics.Metric.Holder
import BenchMetrics.Metric.Measure
import BenchMetrics.Proofs.Run.Worth

/-! Accumulators against plain folds. A call is an update or a skip; what a series, a fold or a
timestamp shows after any calls is read off the calls alone, in their order, and the cells of a run
show and answer what accumulators do that store the values they show. -/
namespace BenchMetrics
open Cell (leftFold leftFold_snoc)

/-- A call of an accumulator. -/
inductive Ask where
  | update (record : Option Record) (view : View)
  | skip

namespace Ask

variable {α β σ τ : Type}

abbrev Answer := Option (Except MetricError Unit)

/-- What an update computes from its record, if it accepts one. -/
def accepted (compute : Record → Except Fault α) : Ask → Option α
  | .update record _ => record.bind fun r => (compute r).toOption
  | .skip => none

/-- The slot that a series takes in a call. -/
def slot? (compute : Record → Except Fault Float) : Ask → Option (Option Sample)
  | .skip => some none
  | .update record view => ((update record view).accepted compute).map fun x => some (.of x)

/-- What is left after a call, and its answer; a skip has none. -/
def put (update : Option Record → View → σ × Except MetricError Unit) (skipped : σ) :
    Ask → σ × Answer
  | .update record view => ((update record view).1, some (update record view).2)
  | .skip => (skipped, none)

/-- What is left after calls, and their answers. -/
def run (step : σ → Ask → σ × Answer) (s : σ) : List Ask → σ × List Answer
  | [] => (s, [])
  | k :: ks => ((run step (step s k).1 ks).1, (step s k).2 :: (run step (step s k).1 ks).2)

/-- Where a state is made of a list and each call adds to it what `take` says, the calls add what
`take` says of them, in their order. -/
theorem run_state {step : σ → Ask → σ × Answer} {state : List β → σ} {take : Ask → Option β}
    (hstep : ∀ xs k, (step (state xs) k).1 = state (xs ++ (take k).toList)) (xs : List β)
    (calls : List Ask) :
    (run step (state xs) calls).1 = state (xs ++ calls.filterMap take) := by
  -- the list grows with every call, so the induction is over all lists to start from
  induction calls generalizing xs with
  | nil => rw [List.filterMap_nil, List.append_nil]; rfl
  | cons k ks ih =>
    have htake : (take k).toList ++ ks.filterMap take = (k :: ks).filterMap take := by
      cases hk : take k with
      | none => rw [List.filterMap_cons_none hk]; rfl
      | some x => rw [List.filterMap_cons_some hk]; rfl
    calc (run step (state xs) (k :: ks)).1
        = (run step (step (state xs) k).1 ks).1 := rfl
      _ = state (xs ++ (take k).toList ++ ks.filterMap take) := by rw [hstep, ih]
      _ = state (xs ++ (k :: ks).filterMap take) := by rw [List.append_assoc, htake]

/-- A map between states that commutes with every call commutes with a run, answers included. -/
theorem run_map {step : σ → Ask → σ × Answer} {step' : τ → Ask → τ × Answer} {f : σ → τ}
    (hstep : ∀ s k, step' (f s) k = (f (step s k).1, (step s k).2)) (s : σ) (calls : List Ask) :
    run step' (f s) calls = (f (run step s calls).1, (run step s calls).2) := by
  induction calls generalizing s with
  | nil => rfl
  | cons k ks ih => simp only [run, hstep, ih]

end Ask

def Cell.call (owner : Tag) (c : Cell) : Ask → Cell × Ask.Answer := Ask.put (c.update owner) c.skip

namespace Holder

def call (owner : Tag) (h : Holder) : Ask → Holder × Ask.Answer := Ask.put (h.update owner) h.skip

/-- What is kept after calls. -/
def after (owner : Tag) (h : Holder) (calls : List Ask) : Holder :=
  (Ask.run (call owner) h calls).1

section
variable {α : Type} {owner : Tag} {compute : Record → Except Fault α} {record : Option Record}

theorem taken_ok_iff {x : α} :
    taken owner compute record = .ok x ↔ ∃ r, record = some r ∧ compute r = .ok x := by
  cases record with
  | none =>
    constructor
    · rintro ⟨⟩
    · rintro ⟨r, ⟨⟩, _⟩
  | some r =>
    have htaken : taken owner compute (some r) = (compute r).mapError (.rejected owner) := rfl
    rw [htaken]
    cases hr : compute r with
    | ok y => simp [Except.mapError, hr]
    | error fault => simp [Except.mapError, hr]

/-- What a call takes of its record is what it computes from it. -/
theorem accepted_eq (owner : Tag) (compute : Record → Except Fault α) (record : Option Record)
    (view : View) :
    (Ask.update record view).accepted compute = (taken owner compute record).toOption := by
  cases record with
  | none => rfl
  | some r =>
    show (compute r).toOption = ((compute r).mapError (MetricError.rejected owner)).toOption
    cases compute r <;> rfl

end

/-- The value that stands for a number, if there is one. -/
def shown {α : Type} (toFloat : α → Float) (current : Option α) : Value :=
  current.elim .unset fun x => .scalar (toFloat x)

section
variable {α : Type} (h : Holder) (result : Except MetricError α) (next : α → Holder)

theorem settle_error {e : MetricError} (he : (settle h result next).2 = .error e) :
    (settle h result next).1 = h := by
  cases result with
  | ok x => cases he
  | error e => rfl

theorem settle_ok_iff : (settle h result next).2 = .ok () ↔ ∃ x, result = .ok x := by
  cases result with
  | ok x => exact ⟨fun _ => ⟨x, rfl⟩, fun _ => rfl⟩
  | error e =>
    constructor
    · rintro ⟨⟩
    · rintro ⟨x, ⟨⟩⟩

end

theorem call_series (owner : Tag) (compute : Record → Except Fault Float)
    (slots : List (Option Sample)) (k : Ask) :
    (call owner (.series compute (.series slots.toArray)) k).1 =
      .series compute (.series (slots ++ (k.slot? compute).toList).toArray) := by
  cases k with
  | skip => simp [call, Ask.put, skip, Value.push, Ask.slot?]
  | update record view =>
    simp only [call, Ask.put, Ask.slot?, accepted_eq owner, update]
    cases taken owner compute record with
    | ok x => simp [settle, Value.push, Except.toOption]
    | error e => simp [settle, Except.toOption]

section
variable {α : Type} {owner : Tag} {compute : Record → Except Fault α} {state : List α → Holder}

/-- Where an update settles what is taken of its record and a skip changes nothing, a call adds
what it accepts. -/
theorem call_of_taken
    (hupdate : ∀ xs record view, update owner (state xs) record view =
      settle (state xs) (taken owner compute record) fun x => state (xs ++ [x]))
    (hskip : ∀ xs, skip (state xs) = state xs) (xs : List α) (k : Ask) :
    (call owner (state xs) k).1 = state (xs ++ (k.accepted compute).toList) := by
  cases k with
  | skip =>
    rw [Ask.accepted, Option.toList_none, List.append_nil]
    exact hskip xs
  | update record view =>
    show (update owner (state xs) record view).1 = _
    rw [hupdate, accepted_eq owner]
    cases taken owner compute record with
    | ok x => rfl
    | error e =>
      rw [Except.toOption, Option.toList_none, List.append_nil]
      rfl

end

theorem update_fold (owner : Tag) (compute : Record → Except Fault Float)
    (combine : Float → Float → Float) (xs : List Float) (record : Option Record) (view : View) :
    update owner (.fold compute combine (shown id (leftFold combine xs))) record view =
      settle (.fold compute combine (shown id (leftFold combine xs)))
        (taken owner compute record) fun x =>
          .fold compute combine (shown id (leftFold combine (xs ++ [x]))) := by
  have hnext (x : Float) : folded combine (shown id (leftFold combine xs)) x =
      shown id (leftFold combine (xs ++ [x])) := by
    rw [leftFold_snoc]
    cases leftFold combine xs <;> rfl
  simp only [update, hnext]

theorem update_timestamp (owner : Tag) (compute : Record → Except Fault Int64)
    (combine : Int64 → Int64 → Int64) (xs : List Int64) (record : Option Record) (view : View) :
    update owner (.timestamp compute combine (leftFold combine xs)
        (shown nanosToFloat (leftFold combine xs))) record view =
      settle (.timestamp compute combine (leftFold combine xs)
          (shown nanosToFloat (leftFold combine xs))) (taken owner compute record) fun ns =>
        .timestamp compute combine (leftFold combine (xs ++ [ns]))
          (shown nanosToFloat (leftFold combine (xs ++ [ns]))) := by
  simp only [update, leftFold_snoc]
  rfl

/-- A call that fails leaves what is shown as it was. -/
theorem update_error {owner : Tag} {h : Holder} {record : Option Record} {view : View}
    {e : MetricError} (he : (h.update owner record view).2 = .error e) :
    (h.update owner record view).1.value = h.value ∧
      (h.update owner record view).1.timestamp? = h.timestamp? := by
  cases h with
  | series | fold | timestamp | derived =>
    have hkept := settle_error _ _ _ he
    exact ⟨congrArg value hkept, congrArg timestamp? hkept⟩
  | rate source label cursor held =>
    -- the cursor may have moved on, and is not shown
    have hkept := settle_error _ _ _ he
    exact ⟨(congrArg value hkept).trans rfl, (congrArg timestamp? hkept).trans rfl⟩

section
variable (owner : Tag)

/-- A cell and the same cell with its value stored beside it go on together. -/
theorem update_held (c : Cell) (record : Option Record) (view : View) :
    c.held.update owner record view =
      ((c.update owner record view).1.held, (c.update owner record view).2) := by
  -- what is computed decides on both sides, and only a fold asks for what it held before
  cases c with
  | series compute slots =>
    cases record with
    | none => rfl
    | some r =>
      show settle _ ((compute r).mapError (.rejected owner)) _ = _
      cases hr : compute r <;> simp only [Cell.update, hr] <;> rfl
  | fold compute combine current =>
    cases record with
    | none => rfl
    | some r =>
      show settle _ ((compute r).mapError (.rejected owner)) _ = _
      cases hr : compute r <;> simp only [Cell.update, hr] <;> cases current <;> rfl
  | timestamp compute combine current =>
    cases record with
    | none => rfl
    | some r =>
      show settle _ ((compute r).mapError (.rejected owner)) _ = _
      cases hr : compute r <;> simp only [Cell.update, hr] <;> rfl
  | derived formula current =>
    cases record with
    | some r => rfl
    | none =>
      show settle _ (formula view) _ = _
      cases hf : formula view <;> simp only [Cell.update, hf] <;> rfl
  | rate source label cursor slots =>
    cases record with
    | none => rfl
    | some r =>
      show settle (.rate source label (cursor + 1) (.series slots))
        ((view.series owner source).bind fun others =>
          (Cell.rateAt source label others cursor).mapError (.rejected owner)) _ = _
      cases hs : view.series owner source with
      | error e => simp only [Cell.update, hs]; rfl
      | ok others =>
        cases hr : Cell.rateAt source label others cursor <;>
          simp only [Cell.update, hs, hr, Except.bind] <;> rfl

theorem call_held (c : Cell) (k : Ask) :
    call owner c.held k = ((c.call owner k).1.held, (c.call owner k).2) := by
  cases k with
  | update record view => simp only [call, Cell.call, Ask.put, update_held]
  | skip => cases c <;> rfl

end

/-- What is computed from the record of a call, if there is one. -/
def Takes {α : Type} (compute : Record → Except Fault α) (record : Option Record) : Prop :=
  ∃ r x, record = some r ∧ compute r = .ok x

theorem settle_taken {α : Type} {owner : Tag} {compute : Record → Except Fault α}
    {record : Option Record} {h : Holder} {next : α → Holder} :
    (settle h (taken owner compute record) next).2 = .ok () ↔ Takes compute record := by
  simp only [settle_ok_iff, taken_ok_iff, Takes]
  exact exists_comm

/-- A series holds a slot for each call that is accepted and for each that is skipped. -/
structure SlotsOf (owner : Tag) (compute : Record → Except Fault Float) : Prop where
  held : ∀ calls, (after owner (.series compute (.series #[])) calls).value =
    .series (calls.filterMap (Ask.slot? compute)).toArray
  accepts : ∀ value record view, (update owner (.series compute value) record view).2 = .ok () ↔
    Takes compute record

/-- A fold holds the left fold of what it accepts, and nothing before that. -/
structure FoldOf (owner : Tag) (compute : Record → Except Fault Float)
    (combine : Float → Float → Float) : Prop where
  held : ∀ calls, (after owner (.fold compute combine .unset) calls).value =
    shown id (leftFold combine (calls.filterMap (Ask.accepted compute)))
  accepts : ∀ value record view,
    (update owner (.fold compute combine value) record view).2 = .ok () ↔ Takes compute record
  skipped : ∀ value, skip (.fold compute combine value) = .fold compute combine value

/-- A timestamp is the exact left fold of what it accepts, and what it shows is that number. -/
structure TimestampOf (owner : Tag) (compute : Record → Except Fault Int64)
    (combine : Int64 → Int64 → Int64) : Prop where
  exactly : ∀ calls, (after owner (.timestamp compute combine none .unset) calls).timestamp? =
    leftFold combine (calls.filterMap (Ask.accepted compute))
  held : ∀ calls, (after owner (.timestamp compute combine none .unset) calls).value =
    shown nanosToFloat (after owner (.timestamp compute combine none .unset) calls).timestamp?
  unset_iff : ∀ calls, (after owner (.timestamp compute combine none .unset) calls).value = .unset ↔
    (after owner (.timestamp compute combine none .unset) calls).timestamp? = none
  accepts : ∀ current value record view,
    (update owner (.timestamp compute combine current value) record view).2 = .ok () ↔
      Takes compute record
  skipped : ∀ current value, skip (.timestamp compute combine current value) =
    .timestamp compute combine current value

/-- A summary is what its formula gave last: neither a record nor a failing formula changes it. -/
structure SummaryOf (owner : Tag) (formula : View → Except MetricError Float) : Prop where
  given : ∀ value r view, update owner (.derived formula value) (some r) view =
    (.derived formula value, .error (.wrongPass owner .recordGiven))
  failing : ∀ value view e, formula view = .error e →
    update owner (.derived formula value) none view = (.derived formula value, .error e)

section
variable (owner : Tag)

theorem slotsOf (compute : Record → Except Fault Float) : SlotsOf owner compute where
  held calls := congrArg value (Ask.run_state (call_series owner compute) [] calls)
  accepts _ _ _ := settle_taken

theorem foldOf (compute : Record → Except Fault Float) (combine : Float → Float → Float) :
    FoldOf owner compute combine := by
  have hcall := call_of_taken (update_fold owner compute combine) (fun _ => rfl)
  exact {
    held := fun calls => congrArg value (Ask.run_state hcall [] calls)
    accepts := fun _ _ _ => settle_taken
    skipped := fun _ => rfl }

theorem timestampOf (compute : Record → Except Fault Int64) (combine : Int64 → Int64 → Int64) :
    TimestampOf owner compute combine := by
  have hcall := call_of_taken (update_timestamp owner compute combine) (fun _ => rfl)
  have hrun (calls : List Ask) := Ask.run_state hcall [] calls
  have hexact (calls : List Ask) := congrArg timestamp? (hrun calls)
  -- both fields are read off the same fold
  have hheld (calls : List Ask) :
      (after owner (.timestamp compute combine none .unset) calls).value = shown nanosToFloat
        (after owner (.timestamp compute combine none .unset) calls).timestamp? :=
    (congrArg value (hrun calls)).trans (congrArg (shown nanosToFloat) (hexact calls).symm)
  exact {
    exactly := hexact
    held := hheld
    unset_iff := fun calls => by
      rw [hheld]
      cases (after owner (.timestamp compute combine none .unset) calls).timestamp? <;>
        simp [shown]
    accepts := fun _ _ _ _ => settle_taken
    skipped := fun _ _ => rfl }

theorem summaryOf (formula : View → Except MetricError Float) : SummaryOf owner formula where
  given _ _ _ := rfl
  failing value view e he := by
    show settle _ (formula view) _ = _
    rw [he]
    rfl

theorem held_value (c : Cell) : c.held.value = c.value := by
  cases c <;> rfl

theorem held_timestamp? (c : Cell) : c.held.timestamp? = c.timestamp? := by
  cases c <;> rfl

/-- Whatever accumulators are called with, they are plain folds over what they accept, a call that
fails changes nothing that is shown, and the cells of a run show and answer the same. -/
theorem accumulates :
    (∀ compute, SlotsOf owner compute) ∧
    (∀ compute combine, FoldOf owner compute combine) ∧
    (∀ compute combine, TimestampOf owner compute combine) ∧
    (∀ formula, SummaryOf owner formula) ∧
    (∀ h record view e, (update owner h record view).2 = .error e →
      (update owner h record view).1.value = h.value ∧
        (update owner h record view).1.timestamp? = h.timestamp?) ∧
    ∀ c calls, (Ask.run (Cell.call owner) c calls).1.value = (after owner c.held calls).value ∧
      (Ask.run (Cell.call owner) c calls).1.timestamp? = (after owner c.held calls).timestamp? ∧
      (Ask.run (Cell.call owner) c calls).2 = (Ask.run (call owner) c.held calls).2 := by
  refine ⟨slotsOf owner, foldOf owner, timestampOf owner, summaryOf owner,
    fun _ _ _ _ he => update_error he, fun c calls => ?_⟩
  have hrun := Ask.run_map (call_held owner) c calls
  have hafter : after owner c.held calls = (Ask.run (Cell.call owner) c calls).1.held :=
    congrArg Prod.fst hrun
  exact ⟨by rw [hafter, held_value], by rw [hafter, held_timestamp?], (congrArg Prod.snd hrun).symm⟩

end

/-- A record that was dispatched at a moment. -/
def sent (ns : Int64) : Record := .plain (.start .null ns) none []

def dispatch (r : Record) : Except Fault Float := (Measure.startNs r).map nanosToFloat

/-- Calls that are accepted, rejected, skipped or made without a record. -/
def mixedCalls : List Ask :=
  [.update (some (sent 9)) [], .update (some (sent 0)) [], .skip, .update none [],
    .update (some (sent 4)) [], .update (some (sent 2)) []]

theorem accumulates_differences :
    (after ⟨"start"⟩ (.timestamp Measure.startNs (· - ·) none .unset) mixedCalls).timestamp? =
      some 3 ∧
    (after ⟨"start"⟩ (.timestamp Measure.startNs (· - ·) none .unset) mixedCalls).value =
      .scalar (nanosToFloat 3) ∧
    (after ⟨"start"⟩ (.fold dispatch (· - ·) .unset) mixedCalls).value =
      .scalar (nanosToFloat 9 - nanosToFloat 4 - nanosToFloat 2) ∧
    (after ⟨"start"⟩ (.series dispatch (.series #[])) mixedCalls).value =
      .series #[some (.of (nanosToFloat 9)), none, some (.of (nanosToFloat 4)),
        some (.of (nanosToFloat 2))] ∧
    (update ⟨"start"⟩ (.fold dispatch (· - ·) (.scalar 1.0)) (some (sent 0)) []).1.value =
      .scalar 1.0 := by
  obtain ⟨hslots, hfold, htime, _, hatomic, _⟩ := accumulates ⟨"start"⟩
  have hexact := (htime Measure.startNs (· - ·)).exactly mixedCalls
  have hthree : leftFold (· - ·) (mixedCalls.filterMap (Ask.accepted Measure.startNs)) =
      some 3 := by decide
  rw [hthree] at hexact
  refine ⟨hexact, ?_, (hfold dispatch (· - ·)).held mixedCalls, (hslots dispatch).held mixedCalls,
    ?_⟩
  · rw [(htime _ _).held, hexact]
    rfl
  · exact (hatomic _ _ _ (.rejected ⟨"start"⟩ (.missingTimestamp "request start")) rfl).1

end Holder
end BenchMetrics
