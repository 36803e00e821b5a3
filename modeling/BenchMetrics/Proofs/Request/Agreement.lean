import BenchMetrics.Proofs.Measure.Checks
import BenchMetrics.Proofs.Request.Timing
import Mathlib

/-! Timings of a request and measurements of its record. Where the extracts of a record were
received when the replies of its request were, both are usable together, and a measurement accepts
the record exactly if its times are in order and the timing is there and not below zero; it then is
the timing. -/
namespace BenchMetrics

/-! ### From each time to the next -/

/-- How long after the one before it each time came. -/
def gaps (ts : List Int64) : List Int64 :=
  List.zipWith (fun earlier later => later - earlier) ts ts.tail

section
variable {ts : List Int64} {t : Int64}

theorem getElem?_gaps (ts : List Int64) (i : Nat) :
    (gaps ts)[i]? = ts[i + 1]?.bind fun later => ts[i]?.map (later - ·) := by
  rw [gaps, List.getElem?_zipWith, List.getElem?_tail]
  cases ts[i]? <;> cases ts[i + 1]? <;> rfl

/-- The gaps lead from the first time to the last. -/
theorem sum_gaps (h : ∀ s ∈ t :: ts, inOpenRange s) :
    ((gaps (t :: ts)).map Int64.toInt).sum = (ts.getLastD t).toInt - t.toInt := by
  induction ts generalizing t with
  | nil => exact (sub_self t.toInt).symm
  | cons s ts ih =>
    have hgap : (s - t).toInt = s.toInt - t.toInt :=
      toInt_sub_of_inOpenRange (h s (.tail _ (.head _))) (h t (.head _))
    have hrest : ∀ r ∈ s :: ts, inOpenRange r := fun r hr => h r (.tail _ hr)
    calc ((gaps (t :: s :: ts)).map Int64.toInt).sum
      _ = (s - t).toInt + ((gaps (s :: ts)).map Int64.toInt).sum := List.sum_cons
      _ = s.toInt - t.toInt + ((ts.getLastD s).toInt - s.toInt) := by rw [hgap, ih hrest]
      _ = ((s :: ts).getLastD t).toInt - t.toInt := by rw [List.getLastD_cons]; ring

end

/-- A difference in range is below zero exactly if it is one of whole numbers. -/
theorem sub_nonneg_of_inOpenRange {a b : Int64} (ha : inOpenRange a) (hb : inOpenRange b) :
    0 ≤ a - b ↔ b ≤ a := by
  rw [Int64.le_iff_toInt_le, Int64.le_iff_toInt_le, toInt_sub_of_inOpenRange ha hb]
  exact sub_nonneg

/-- The timings of a request, read off the times at which its replies arrived. -/
structure Request.TimedBy (r : Request) (ts : List Int64) : Prop where
  first : r.timeToFirst = ts.head?.map (· - r.startNs)
  second : r.timeToSecond = ts[1]?.bind fun second => ts[0]?.map (second - ·)
  next : ∀ i, r.tokenLatency (i + 1) = (gaps ts)[i]?

namespace Request
variable {r : Request} {ts : List Int64}

theorem timedBy_of_usable (h : r.isUsable) : r.TimedBy (r.replies.map Reply.receivedNs) := by
  have harrivals := arrivals?_of_usable h
  have hrange : ∀ t ∈ r.replies.map Reply.receivedNs, inOpenRange t := by
    obtain ⟨_, _, hreceived⟩ := usable_ranges h
    exact List.forall_mem_map.mpr hreceived
  generalize r.replies.map Reply.receivedNs = ts at *
  refine ⟨?_, ?_, fun i => ?_⟩
  · rw [timeToFirst, harrivals, Option.bind_some]
  · rw [timeToSecond, harrivals, Option.bind_some]
    rcases ts with _ | ⟨first, _ | ⟨second, rest⟩⟩ <;> rfl
  · rw [tokenLatency, harrivals, Option.bind_some, getElem?_gaps, if_neg (Nat.succ_ne_zero i),
      Nat.add_sub_cancel]
    -- the difference of two times that are there passes its check
    cases hlater : ts[i + 1]? with
    | none => rfl
    | some later =>
      cases hearlier : ts[i]? with
      | none => rfl
      | some earlier =>
        have hexact : (later - earlier).toInt = later.toInt - earlier.toInt :=
          toInt_sub_of_inOpenRange (hrange _ (List.mem_of_getElem? hlater))
            (hrange _ (List.mem_of_getElem? hearlier))
        exact checkedSub_eq_some_iff.mpr hexact

end Request

namespace Record

/-- The extracts of the record were received when the replies of its request were. -/
def Matched (r : Record) : Prop := r.times = r.request.replies.map Reply.receivedNs

variable {r : Record} {x : Float}

theorem isUsable_eq (r : Record) : r.isUsable =
    (r.request.failure.isNone && inOpenRange r.startNs && !r.times.isEmpty &&
      r.times.all inOpenRange) := by
  rw [isUsable, times, List.isEmpty_map, List.all_map]
  rfl

theorem isUsable_of_matched (h : r.Matched) : r.isUsable = r.request.isUsable := by
  rw [isUsable_eq, h, List.isEmpty_map, List.all_map]
  rfl

theorem usable_times (h : r.isUsable) :
    inOpenRange r.startNs ∧ 0 < r.times.length ∧ ∀ t ∈ r.times, inOpenRange t := by
  simp only [isUsable_eq, Bool.and_eq_true, Bool.not_eq_true', List.isEmpty_eq_false_iff,
    List.all_eq_true] at h
  obtain ⟨⟨⟨_, hstart⟩, hsome⟩, hreceived⟩ := h
  exact ⟨hstart, List.length_pos_iff.mpr hsome, hreceived⟩

theorem isOrdered_iff : r.isOrdered ↔ r.times.Pairwise (· ≤ ·) := decide_eq_true_iff

/-- Of a usable record only the order and the number of its times are left to check. -/
theorem arrived_of_usable (h : r.isUsable) {required : Nat} :
    Measure.Arrived required r.times ↔ required ≤ r.times.length ∧ r.isOrdered := by
  obtain ⟨_, hpos, hrange⟩ := usable_times h
  constructor
  · intro harrived
    exact ⟨(Nat.le_max_left _ _).trans harrived.enough, isOrdered_iff.mpr harrived.ordered⟩
  · rintro ⟨henough, hordered⟩
    exact ⟨Nat.max_le.mpr ⟨henough, hpos⟩, hrange, isOrdered_iff.mp hordered⟩

/-- The measurements of a record agree with the timings of its request. -/
structure Agreeing (r : Record) : Prop where
  first : ∀ x, Measure.timeToFirst r = .ok x ↔
    r.isOrdered ∧ ∃ ns, r.request.timeToFirst = some ns ∧ 0 ≤ ns ∧ nanosToFloat ns = x
  second : ∀ x, Measure.timeToSecond r = .ok x ↔
    r.isOrdered ∧ ∃ ns, r.request.timeToSecond = some ns ∧ nanosToFloat ns = x
  /-- To the last reply it takes the time to the first and that of each token after it. -/
  last : ∃ (first : Int64) (tokens : List Int64), r.request.timeToFirst = some first ∧
    (∀ i, r.request.tokenLatency (i + 1) = tokens[i]?) ∧
    ∀ x, Measure.requestLatency r = .ok x ↔
      r.isOrdered ∧ (∀ last ∈ r.times.getLast?, r.startNs ≤ last) ∧
        Float.ofInt (first.toInt + (tokens.map Int64.toInt).sum) = x

section
variable {t : Int64} {ts : List Int64}

theorem timeToFirst_agrees (h : r.isUsable) (htimes : r.times = t :: ts)
    (htimed : r.request.TimedBy (t :: ts)) : Measure.timeToFirst r = .ok x ↔
      r.isOrdered ∧ ∃ ns, r.request.timeToFirst = some ns ∧ 0 ≤ ns ∧ nanosToFloat ns = x := by
  obtain ⟨hstart, hpos, hrange⟩ := usable_times h
  have hnonneg : r.startNs ≤ t ↔ 0 ≤ t - r.startNs :=
    (sub_nonneg_of_inOpenRange (hrange t (htimes ▸ .head _)) hstart).symm
  have hfirst : r.request.timeToFirst = some (t - r.startNs) := htimed.first
  rw [Measure.timeToFirst_eq, Measure.sinceDispatch_eq_ok_iff, arrived_of_usable h,
    and_iff_right hstart, and_iff_right (show 1 ≤ r.times.length from hpos), htimes, hfirst]
  simp only [Option.some.injEq, exists_eq_left']
  exact and_congr_right fun _ => and_congr_left fun _ => hnonneg

theorem timeToSecond_agrees (h : r.isUsable) (htimes : r.times = t :: ts)
    (htimed : r.request.TimedBy (t :: ts)) : Measure.timeToSecond r = .ok x ↔
      r.isOrdered ∧ ∃ ns, r.request.timeToSecond = some ns ∧ nanosToFloat ns = x := by
  rw [Measure.timeToSecond_eq_ok_iff, arrived_of_usable h, htimes, htimed.second]
  cases ts with
  | nil => simp
  | cons s ts => simp [Measure.firstOf]

theorem requestLatency_agrees (h : r.isUsable) (htimes : r.times = t :: ts) :
    Measure.requestLatency r = .ok x ↔
      r.isOrdered ∧ (∀ last ∈ r.times.getLast?, r.startNs ≤ last) ∧
        Float.ofInt ((t - r.startNs).toInt + ((gaps (t :: ts)).map Int64.toInt).sum) = x := by
  obtain ⟨hstart, hpos, hrange⟩ := usable_times h
  rw [htimes] at hrange
  have hend : Measure.lastOf (t :: ts) = ts.getLastD t := List.getLastD_cons ..
  have hlast : (t :: ts).getLast? = some (ts.getLastD t) := by
    rw [List.getLast?_cons, List.getLastD_eq_getLast?]
  have hin : inOpenRange (ts.getLastD t) := hrange _ (List.mem_of_getLast? hlast)
  -- the way to the last time is the way to the first and all gaps after it
  have htotal : (ts.getLastD t - r.startNs).toInt =
      (t - r.startNs).toInt + ((gaps (t :: ts)).map Int64.toInt).sum := by
    rw [sum_gaps hrange, toInt_sub_of_inOpenRange hin hstart,
      toInt_sub_of_inOpenRange (hrange t (.head _)) hstart]
    ring
  rw [Measure.requestLatency_eq, Measure.sinceDispatch_eq_ok_iff, arrived_of_usable h,
    and_iff_right hstart, and_iff_right (show 1 ≤ r.times.length from hpos), htimes, hend, hlast,
    nanosToFloat, htotal]
  simp only [Option.mem_some_iff, forall_eq']

end

/-- Where the extracts were received when the replies were, record and request are usable together,
and what is measured of the record agrees with the timings of the request. -/
theorem timings_agree (h : r.Matched) :
    r.isUsable = r.request.isUsable ∧ (r.isUsable → r.Agreeing) := by
  have heq := isUsable_of_matched h
  refine ⟨heq, fun husable => ?_⟩
  obtain ⟨_, hpos, _⟩ := usable_times husable
  obtain ⟨t, ts, htimes⟩ := List.exists_cons_of_length_pos hpos
  have htimed : r.request.TimedBy (t :: ts) := by
    rw [← htimes, h]
    exact Request.timedBy_of_usable (heq ▸ husable)
  exact {
    first := fun _ => timeToFirst_agrees husable htimes htimed
    second := fun _ => timeToSecond_agrees husable htimes htimed
    last := ⟨t - r.startNs, gaps (t :: ts), htimed.first, htimed.next,
      fun _ => requestLatency_agrees husable htimes⟩ }

/-- The record of a request whose replies are as far apart as they can be. -/
def widest : Record :=
  plain Request.widest (some 1) [.make 2 (some 1), .make 9223372036854775806 none]

theorem timings_agree_widest : widest.Matched ∧ widest.isUsable ∧ widest.request.isUsable ∧
    Measure.timeToFirst widest = .ok (nanosToFloat 1) ∧
    Measure.timeToSecond widest = .ok (nanosToFloat 9223372036854775804) ∧
    Measure.requestLatency widest = .ok (Float.ofInt 9223372036854775805) := by
  have hmatched : widest.Matched := rfl
  have husable : widest.isUsable := by decide
  obtain ⟨heq, hagreeing⟩ := timings_agree hmatched
  obtain ⟨hfirst, hsecond, hlast⟩ := hagreeing husable
  obtain ⟨first, tokens, hfirst', htokens, htotal⟩ := hlast
  have hone : first = 1 := (Option.some.inj (hfirst'.symm.trans (by decide)))
  have hgaps : tokens = [9223372036854775804] := by
    apply List.ext_getElem?
    intro i
    rw [← htokens i]
    cases i with
    | zero => decide
    | succ i => rfl
  subst hone hgaps
  have hbehind : ∀ last ∈ widest.times.getLast?, widest.startNs ≤ last := by
    rintro _ ⟨⟩
    decide
  refine ⟨hmatched, husable, heq ▸ husable, ?_, ?_, ?_⟩
  · exact (hfirst _).mpr ⟨by decide, 1, by decide, by decide, rfl⟩
  · exact (hsecond _).mpr ⟨by decide, _, by decide, rfl⟩
  · exact (htotal _).mpr ⟨by decide, hbehind, congrArg Float.ofInt (by decide)⟩

end Record
end BenchMetrics
