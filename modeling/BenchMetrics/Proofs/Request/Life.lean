import BenchMetrics.Proofs.Request.Timing
import Mathlib.Data.List.Induction

/-! The life of a request. Steps of different kinds commute, and among the steps that set a part of
the request the last one stands, so that only the order of the replies matters. A request that has
failed or been answered out of range never has timings again; the timings between the first replies
stay what they are as long as the request is usable. -/
namespace BenchMetrics.Request

namespace Step

inductive Kind where
  | firstByte
  | reply
  | completion
  | failure
  deriving DecidableEq

def kind : Step → Kind
  | .firstByte _ => .firstByte
  | .receive _ => .reply
  | .complete _ _ => .completion
  | .fail _ => .failure

def reply? : Step → Option Reply
  | .receive reply => some reply
  | _ => none

theorem mem_filterMap_reply? {steps : List Step} {reply : Reply} :
    reply ∈ steps.filterMap reply? ↔ .receive reply ∈ steps := by
  rw [List.mem_filterMap]
  constructor
  · rintro ⟨step, hstep, hreply⟩
    cases step <;> cases hreply
    exact hstep
  · exact fun h => ⟨.receive reply, h, rfl⟩

end Step

/-- The steps of one kind, in their order. -/
def stepsOf (kind : Step.Kind) (steps : List Step) : List Step := steps.filter (·.kind = kind)

/-- The last step of a kind, if there is one. -/
def lastOf (kind : Step.Kind) (steps : List Step) : List Step :=
  (stepsOf kind steps).getLast?.toList

/-- The kinds of the steps that set a part of the request. -/
def setters : List Step.Kind := [.firstByte, .completion, .failure]

/-- All replies in their order, and then the last step of each other kind. -/
def settled (steps : List Step) : List Step :=
  stepsOf .reply steps ++ setters.flatMap (lastOf · steps)

/-- What a usable request has been through: a start, replies, and nothing out of range. -/
structure Fit (startNs : Int64) (steps : List Step) : Prop where
  started : 0 < startNs ∧ startNs < Int64.maxValue
  answered : ∃ reply, .receive reply ∈ steps
  received : ∀ reply, .receive reply ∈ steps →
    0 < reply.receivedNs ∧ reply.receivedNs < Int64.maxValue
  unfailed : ∀ failure, .fail failure ∉ steps

/-- A failure, or a reply out of range. -/
def Spoiling : Step → Prop
  | .fail _ => True
  | .receive reply => ¬ (0 < reply.receivedNs ∧ reply.receivedNs < Int64.maxValue)
  | _ => False

structure Untimed (r : Request) : Prop where
  first : r.timeToFirst = none
  second : r.timeToSecond = none
  last : r.timeToLast = none
  spacing : r.interTokenLatency = none
  token : ∀ i, r.tokenLatency i = none

/-- The timings between the first replies of one request are those of another. -/
structure Keeps (r s : Request) : Prop where
  first : ∀ x, r.timeToFirst = some x → s.timeToFirst = some x
  second : ∀ x, r.timeToSecond = some x → s.timeToSecond = some x
  token : ∀ i x, 1 ≤ i → r.tokenLatency i = some x → s.tokenLatency i = some x

/-! ### Steps that change places -/

section
variable {a b : Step} {steps later : List Step} {kind : Step.Kind} {kinds : List Step.Kind}

theorem apply_comm (h : a.kind ≠ b.kind) (r : Request) :
    (r.apply a).apply b = (r.apply b).apply a := by
  cases a <;> cases b <;> first | rfl | exact absurd rfl h

theorem apply_overridden (h : a.kind = b.kind) (hset : b.kind ≠ .reply) (r : Request) :
    (r.apply a).apply b = r.apply b := by
  cases a <;> cases b <;> first | rfl | exact absurd rfl hset | cases h

theorem run_append (r : Request) (steps later : List Step) :
    r.run (steps ++ later) = (r.run steps).run later := List.foldl_append

theorem run_snoc (r : Request) (steps : List Step) (b : Step) :
    r.run (steps ++ [b]) = (r.run steps).apply b := run_append r steps [b]

theorem run_apply_comm (h : ∀ a ∈ steps, a.kind ≠ b.kind) (r : Request) :
    (r.run steps).apply b = (r.apply b).run steps := by
  induction steps generalizing r with
  | nil => rfl
  | cons a steps ih =>
    have hrest : ∀ c ∈ steps, c.kind ≠ b.kind := fun c hc => h c (.tail _ hc)
    calc (r.run (a :: steps)).apply b = ((r.apply a).run steps).apply b := rfl
      -- the step has come to the one in front of the others, and passes by it as well
      _ = ((r.apply a).apply b).run steps := ih hrest (r.apply a)
      _ = ((r.apply b).apply a).run steps := by rw [apply_comm (h a (.head _))]

theorem stepsOf_snoc : stepsOf kind (steps ++ [b]) =
    if b.kind = kind then stepsOf kind steps ++ [b] else stepsOf kind steps := by
  by_cases h : b.kind = kind <;> simp [stepsOf, h]

theorem lastOf_snoc : lastOf kind (steps ++ [b]) =
    if b.kind = kind then [b] else lastOf kind steps := by
  rw [lastOf, stepsOf_snoc]
  by_cases h : b.kind = kind
  · rw [if_pos h, if_pos h, List.getLast?_concat, Option.toList_some]
  · rw [if_neg h, if_neg h, lastOf]

theorem kind_of_mem_lastOf (h : a ∈ lastOf kind steps) : a.kind = kind := by
  have hlast : a ∈ (stepsOf kind steps).getLast? := Option.mem_toList.mp h
  simpa using (List.mem_filter.mp (List.mem_of_getLast? hlast)).2

theorem run_lastOf_apply (hset : b.kind ≠ .reply) (r : Request) :
    (r.run (lastOf b.kind steps)).apply b = r.apply b := by
  have hkind : ∀ a ∈ lastOf b.kind steps, a.kind = b.kind := fun _ => kind_of_mem_lastOf
  rw [lastOf] at hkind ⊢
  cases h : (stepsOf b.kind steps).getLast? with
  | none => rfl
  | some a =>
    have ha : a.kind = b.kind := hkind a (by rw [h]; exact .head _)
    exact apply_overridden ha hset r

theorem kind_ne_of_mem (h : b.kind ∉ kinds) (ha : a ∈ kinds.flatMap (lastOf · steps)) :
    a.kind ≠ b.kind := by
  obtain ⟨kind, hkind, hlast⟩ := List.mem_flatMap.mp ha
  intro heq
  rw [← kind_of_mem_lastOf hlast, heq] at hkind
  exact h hkind

theorem flatMap_lastOf_snoc (h : b.kind ∉ kinds) :
    kinds.flatMap (lastOf · (steps ++ [b])) = kinds.flatMap (lastOf · steps) := by
  have hsame : ∀ kind ∈ kinds, lastOf kind (steps ++ [b]) = lastOf kind steps := by
    intro kind hkind
    have hne : b.kind ≠ kind := by
      rintro rfl
      exact h hkind
    rw [lastOf_snoc, if_neg hne]
  rw [List.flatMap_def, List.flatMap_def, List.map_congr_left hsame]

theorem run_flatMap_apply (hkinds : kinds.Nodup) (hmem : b.kind ∈ kinds)
    (hset : b.kind ≠ .reply) (r : Request) :
    (r.run (kinds.flatMap (lastOf · steps))).apply b =
      r.run (kinds.flatMap (lastOf · (steps ++ [b]))) := by
  induction kinds generalizing r with
  | nil => cases hmem
  | cons kind kinds ih =>
    rw [List.nodup_cons] at hkinds
    rw [List.flatMap_cons, List.flatMap_cons, run_append, run_append, lastOf_snoc]
    by_cases hb : b.kind = kind
    · -- the step passes by all that stand behind its kind, and then overrides the last of its kind
      subst hb
      have hothers : ∀ a ∈ kinds.flatMap (lastOf · steps), a.kind ≠ b.kind :=
        fun _ => kind_ne_of_mem hkinds.1
      rw [if_pos rfl, flatMap_lastOf_snoc hkinds.1, run_apply_comm hothers,
        run_lastOf_apply hset]
      rfl
    · -- its kind comes later, so the one in front stays the last of its own
      have hmem' : b.kind ∈ kinds := (List.mem_cons.mp hmem).resolve_left hb
      rw [if_neg hb]
      exact ih hkinds.2 hmem' (r.run (lastOf kind steps))

/-- Only the order of the replies matters, and the last step of each other kind. -/
theorem run_settled (r : Request) (steps : List Step) : r.run (settled steps) = r.run steps := by
  induction steps using List.reverseRecOn with
  | nil => rfl
  | append_singleton steps b ih =>
    rw [run_snoc, ← ih, settled, settled, run_append, run_append, stepsOf_snoc]
    by_cases hb : b.kind = .reply
    · -- a reply goes in front of everything that was set
      have hnot : b.kind ∉ setters := by
        rw [hb]
        decide
      have hset : ∀ a ∈ setters.flatMap (lastOf · steps), a.kind ≠ b.kind :=
        fun _ => kind_ne_of_mem hnot
      rw [if_pos hb, run_snoc, flatMap_lastOf_snoc hnot, run_apply_comm hset]
    · -- any other step stands for its kind from now on
      have hmem : b.kind ∈ setters := by
        cases hkind : b.kind with
        | reply => exact absurd hkind hb
        | firstByte | completion | failure => decide
      rw [if_neg hb]
      exact (run_flatMap_apply (by decide) hmem hb _).symm

end

/-! ### What a run leaves alone, and what it makes of the replies -/

section
variable {r s : Request} {steps later : List Step} {ts us : List Int64}

theorem run_startNs (r : Request) (steps : List Step) : (r.run steps).startNs = r.startNs := by
  induction steps generalizing r with
  | nil => rfl
  | cons step steps ih =>
    have hstep : (r.apply step).startNs = r.startNs := by cases step <;> rfl
    exact (ih (r.apply step)).trans hstep

theorem run_replies (r : Request) (steps : List Step) :
    (r.run steps).replies = r.replies ++ steps.filterMap Step.reply? := by
  induction steps generalizing r with
  | nil => exact (List.append_nil _).symm
  | cons step steps ih =>
    refine (ih (r.apply step)).trans ?_
    cases step with
    | receive reply => exact List.append_assoc r.replies [reply] (steps.filterMap Step.reply?)
    | firstByte | complete | fail => rfl

theorem run_failure_eq_none_iff (r : Request) (steps : List Step) :
    (r.run steps).failure = none ↔ r.failure = none ∧ ∀ failure, .fail failure ∉ steps := by
  induction steps generalizing r with
  | nil => simp [run]
  | cons step steps ih =>
    refine (ih (r.apply step)).trans ?_
    cases step with
    | fail failure =>
      apply iff_of_false
      · rintro ⟨hnone, _⟩
        cases hnone
      · rintro ⟨_, hnot⟩
        exact hnot failure (.head _)
    | firstByte | receive | complete => simp [apply, setFirstByte, receive, complete]

theorem isUsable_start_iff (payload : Payload) (startNs : Int64) (steps : List Step) :
    ((start payload startNs).run steps).isUsable ↔ Fit startNs steps := by
  have hreplies : ((start payload startNs).run steps).replies = steps.filterMap Step.reply? :=
    run_replies _ steps
  have hfailure : ((start payload startNs).run steps).failure = none ↔
      ∀ failure, .fail failure ∉ steps := by
    rw [run_failure_eq_none_iff]
    exact and_iff_right rfl
  have hstart : ((start payload startNs).run steps).startNs = startNs := run_startNs _ steps
  simp only [isUsable, hreplies, hstart, Bool.and_eq_true, Option.isNone_iff_eq_none, hfailure,
    inOpenRange_iff_lt, Bool.not_eq_true', List.isEmpty_eq_false_iff_exists_mem,
    List.all_eq_true, Step.mem_filterMap_reply?]
  constructor
  · rintro ⟨⟨⟨hfail, hstarted⟩, hanswered⟩, hreceived⟩
    exact ⟨hstarted, hanswered, hreceived, hfail⟩
  · intro h
    exact ⟨⟨⟨h.unfailed, h.started⟩, h.answered⟩, h.received⟩

theorem Fit.not_spoiling {startNs : Int64} (h : Fit startNs steps) :
    ∀ step ∈ steps, ¬ Spoiling step := by
  intro step hmem hspoiling
  cases step with
  | fail failure => exact h.unfailed failure hmem
  | receive reply => exact hspoiling (h.received reply hmem)
  | firstByte | complete => exact hspoiling

theorem untimed_of_unusable (h : ¬ r.isUsable) : r.Untimed := by
  obtain ⟨hfirst, hsecond, hlast, hspacing, htoken⟩ := absent_of_unusable h
  exact ⟨hfirst, hsecond, hlast, hspacing, htoken⟩

theorem arrivals?_eq_some_iff :
    r.arrivals? = some ts ↔ r.isUsable ∧ r.replies.map Reply.receivedNs = ts := by
  rw [arrivals?]
  by_cases h : r.isUsable <;> simp [h]

theorem arrivals?_run (hr : r.arrivals? = some ts) (h : (r.run later).isUsable) :
    ∃ us, (r.run later).arrivals? = some (ts ++ us) := by
  obtain ⟨_, rfl⟩ := arrivals?_eq_some_iff.mp hr
  -- what arrives later arrives behind the replies that are there
  refine ⟨(later.filterMap Step.reply?).map Reply.receivedNs, ?_⟩
  rw [arrivals?_of_usable h, run_replies, List.map_append]

theorem timeToFirst_kept (hr : r.arrivals? = some ts) (hs : s.arrivals? = some (ts ++ us))
    (hstart : s.startNs = r.startNs) {x : Int64} (h : r.timeToFirst = some x) :
    s.timeToFirst = some x := by
  rw [timeToFirst, hr, Option.bind_some] at h
  rw [timeToFirst, hs, Option.bind_some, hstart]
  cases ts with
  | nil => cases h
  | cons t ts => exact h

theorem timeToSecond_kept (hr : r.arrivals? = some ts) (hs : s.arrivals? = some (ts ++ us))
    {x : Int64} (h : r.timeToSecond = some x) : s.timeToSecond = some x := by
  rw [timeToSecond, hr, Option.bind_some] at h
  rw [timeToSecond, hs, Option.bind_some]
  rcases ts with _ | ⟨t, _ | ⟨u, ts⟩⟩
  · cases h
  · cases h
  · exact h

theorem tokenLatency_kept (hr : r.arrivals? = some ts) (hs : s.arrivals? = some (ts ++ us))
    {i : Nat} (hi : 1 ≤ i) {x : Int64} (h : r.tokenLatency i = some x) :
    s.tokenLatency i = some x := by
  have hne : i ≠ 0 := Nat.ne_of_gt hi
  rw [tokenLatency, hr, Option.bind_some, if_neg hne] at h
  rw [tokenLatency, hs, Option.bind_some, if_neg hne]
  obtain ⟨current, hcurrent, hprevious⟩ := Option.bind_eq_some_iff.mp h
  -- the reply is there already, and the one before it all the more
  obtain ⟨hlt, _⟩ := List.getElem?_eq_some_iff.mp hcurrent
  have hlt' : i - 1 < ts.length := Nat.lt_of_le_of_lt (Nat.sub_le i 1) hlt
  rw [List.getElem?_append_left hlt, List.getElem?_append_left hlt']
  exact h

/-- As long as the request is usable, later steps leave the timings between its first replies
alone. -/
theorem keeps_run (h : (r.run later).isUsable) : r.Keeps (r.run later) := by
  refine ⟨fun x hx => ?_, fun x hx => ?_, fun i x hi hx => ?_⟩
  · obtain ⟨ts, hr, _⟩ := Option.bind_eq_some_iff.mp hx
    obtain ⟨us, hs⟩ := arrivals?_run hr h
    exact timeToFirst_kept hr hs (run_startNs r later) hx
  · obtain ⟨ts, hr, _⟩ := Option.bind_eq_some_iff.mp hx
    obtain ⟨us, hs⟩ := arrivals?_run hr h
    exact timeToSecond_kept hr hs hx
  · obtain ⟨ts, hr, _⟩ := Option.bind_eq_some_iff.mp hx
    obtain ⟨us, hs⟩ := arrivals?_run hr h
    exact tokenLatency_kept hr hs hi hx

end

/-- How the steps of a request come between each other makes no difference: what they lead to is what
the replies in their order and the last step of each other kind lead to. It is usable exactly if
nothing in its life forbids it; after a failure or a reply out of range it has no timings, and until
then the timings between its first replies stay. -/
theorem run_interleaved (payload : Payload) (startNs : Int64) :
    (∀ steps, (start payload startNs).run steps = (start payload startNs).run (settled steps)) ∧
    (∀ steps, ((start payload startNs).run steps).isUsable ↔ Fit startNs steps) ∧
    (∀ steps later, (∃ step ∈ steps, Spoiling step) →
      ((start payload startNs).run (steps ++ later)).Untimed) ∧
    ∀ steps later, ((start payload startNs).run (steps ++ later)).isUsable →
      ((start payload startNs).run steps).Keeps ((start payload startNs).run (steps ++ later)) := by
  refine ⟨fun steps => (run_settled _ steps).symm, isUsable_start_iff payload startNs, ?_, ?_⟩
  · rintro steps later ⟨step, hmem, hspoiling⟩
    apply untimed_of_unusable
    intro husable
    have hfit := (isUsable_start_iff payload startNs (steps ++ later)).mp husable
    exact hfit.not_spoiling step (List.mem_append_left _ hmem) hspoiling
  · intro steps later h
    rw [run_append] at h ⊢
    exact keeps_run h

/-- Two replies between steps of other kinds, and then a third; and a reply in front of a failure. -/
theorem run_interleaved_answered :
    ((start .null 100).run [.receive (.text 150 "a"), .firstByte 140, .complete 300 (some 200),
      .receive (.text 170 "b"), .firstByte 130, .receive (.text 160 "c")]).isUsable ∧
    ((start .null 100).run [.receive (.text 150 "a"), .firstByte 140, .complete 300 (some 200),
      .receive (.text 170 "b"), .firstByte 130, .receive (.text 160 "c")]).timeToSecond = some 20 ∧
    ((start .null 100).run [.receive (.text 150 "a"), .fail ⟨none, none, "cut"⟩,
      .receive (.text 170 "b")]).timeToFirst = none := by
  obtain ⟨_, husable, huntimed, hkeeps⟩ := run_interleaved .null 100
  have hthird : ((start .null 100).run ([.receive (.text 150 "a"), .firstByte 140,
      .complete 300 (some 200), .receive (.text 170 "b")] ++
      [.firstByte 130, .receive (.text 160 "c")])).isUsable := by decide
  have hfailed : ∃ step ∈ [Step.receive (.text 150 "a"), .fail ⟨none, none, "cut"⟩],
      Spoiling step := ⟨.fail ⟨none, none, "cut"⟩, by simp, trivial⟩
  refine ⟨hthird, (hkeeps _ _ hthird).second 20 (by decide), ?_⟩
  exact (huntimed _ [.receive (.text 170 "b")] hfailed).first

end BenchMetrics.Request
