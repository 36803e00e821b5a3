import BenchMetrics.Metric.Measure
import Mathlib.Data.List.Chain

/-! The checks that measurements start with, and the measurements, each by what it lets through.
The check of arrival times answers with all of them exactly if there are enough, all can be
measured from and none is earlier than the one before it. -/
namespace BenchMetrics

theorem bind_eq_ok_iff {ε α β : Type} {x : Except ε α} {f : α → Except ε β} {b : β} :
    x >>= f = .ok b ↔ ∃ a, x = .ok a ∧ f a = .ok b := by
  cases x <;> simp [bind, Except.bind]

namespace Record

/-- The times at which the responses were received. -/
def times (r : Record) : List Int64 := r.extracts.map (·.receivedNs)

/-- No response was received before an earlier one. -/
def isOrdered (r : Record) : Bool := r.times.Pairwise (· ≤ ·)

theorem isUsable_iff {r : Record} : r.isUsable ↔ r.failure = none ∧ inOpenRange r.startNs ∧
    r.extracts ≠ [] ∧ ∀ e ∈ r.extracts, inOpenRange e.receivedNs := by
  simp [isUsable, failure, and_assoc]

end Record

namespace Measure

/-- The check of arrival times goes through if all of them are in range and none is earlier than
the one before it. -/
theorem arrivalFault?_eq_none {previous : Option Int64} {index : Nat} {es : List Extract} :
    arrivalFault? previous index es = none ↔ (∀ e ∈ es, inOpenRange e.receivedNs) ∧
      (previous.toList ++ es.map (·.receivedNs)).IsChain (· ≤ ·) := by
  -- over the extracts that remain, the time in front of them being the first link of the chain
  induction es generalizing previous index with
  | nil => cases previous <;> simp [arrivalFault?]
  | cons e es ih =>
    rw [arrivalFault?]
    by_cases hrange : inOpenRange e.receivedNs
    · cases previous with
      | none => simp [hrange, ih]
      | some p =>
        by_cases hlt : e.receivedNs < p
        · have hle : ¬ p ≤ e.receivedNs := fun hle => Int64.not_lt.mpr hle hlt
          simp [hrange, hlt, hle]
        · have hle : p ≤ e.receivedNs := Int64.not_lt.mp hlt
          simp [hrange, hlt, hle, ih]
    · simp [hrange]

/-- Times that pass the check. -/
structure Arrived (required : Nat) (ts : List Int64) : Prop where
  enough : max required 1 ≤ ts.length
  inRange : ∀ t ∈ ts, inOpenRange t
  ordered : ts.Pairwise (· ≤ ·)

theorem arrived_iff {r : Record} {required : Nat} : Arrived required r.times ↔
    max required 1 ≤ r.extracts.length ∧ arrivalFault? none 0 r.extracts = none := by
  have hrange : (∀ t ∈ r.times, inOpenRange t) ↔ ∀ e ∈ r.extracts, inOpenRange e.receivedNs :=
    List.forall_mem_map
  rw [arrivalFault?_eq_none, Option.toList_none, List.nil_append, List.isChain_iff_pairwise,
    ← hrange, ← r.extracts.length_map (f := (·.receivedNs))]
  exact ⟨fun h => ⟨h.enough, h.inRange, h.ordered⟩, fun h => ⟨h.1, h.2.1, h.2.2⟩⟩

theorem responses_eq_ok_iff {r : Record} {required : Nat} {es : List Extract} :
    responses r required = .ok es ↔ es = r.extracts ∧ Arrived required r.times := by
  rw [arrived_iff, responses]
  by_cases hlength : r.extracts.length < max required 1
  · have hnot : ¬ max required 1 ≤ r.extracts.length := Nat.not_le.mpr hlength
    simp [hlength, hnot]
  · have henough : max required 1 ≤ r.extracts.length := Nat.not_lt.mp hlength
    rw [if_neg hlength, and_iff_right henough]
    cases arrivalFault? none 0 r.extracts with
    | none => simp [eq_comm]
    | some fault => simp

theorem arrivals_eq_ok_iff {r : Record} {required : Nat} {ts : List Int64} :
    arrivals r required = .ok ts ↔ ts = r.times ∧ Arrived required r.times := by
  rw [arrivals]
  constructor
  · intro h
    cases hresponses : responses r required with
    | error fault =>
      rw [hresponses] at h
      cases h
    | ok es =>
      obtain ⟨rfl, harrived⟩ := responses_eq_ok_iff.mp hresponses
      rw [hresponses] at h
      cases h
      exact ⟨rfl, harrived⟩
  · rintro ⟨rfl, harrived⟩
    rw [responses_eq_ok_iff.mpr ⟨rfl, harrived⟩]
    rfl

/-! The responses that are measured from stand at these places. -/
section
variable {ts : List Int64}

theorem getElem?_first (h : 0 < ts.length) : ts[0]? = some (firstOf ts) := by
  cases ts with
  | nil => cases h
  | cons t ts => rfl

theorem getElem?_last (h : 0 < ts.length) : ts[ts.length - 1]? = some (lastOf ts) := by
  rw [← List.getLast?_eq_getElem?, lastOf, List.getLastD_eq_getLast?,
    List.getLast?_eq_some_getLast (List.length_pos_iff.mp h)]
  rfl

theorem getElem?_second (h : 1 < ts.length) : ts[1]? = some (firstOf (ts.drop 1)) := by
  match ts, h with
  | _ :: second :: _, _ => rfl

end

namespace Arrived

variable {required : Nat} {ts : List Int64}

/-- What is enough for more is enough for less. -/
theorem mono (h : Arrived required ts) {least : Nat} (hle : least ≤ required) :
    Arrived least ts where
  enough := by
    have henough := h.enough
    omega
  inRange := h.inRange
  ordered := h.ordered

theorem length_pos (h : Arrived required ts) : 0 < ts.length := by
  have henough := h.enough
  omega

theorem le_of_le (h : Arrived required ts) {i j : Nat} (hij : i ≤ j) (hj : j < ts.length) :
    ts[i] ≤ ts[j] := by
  rcases Nat.eq_or_lt_of_le hij with rfl | hlt
  · exact Int64.le_refl _
  · exact List.pairwise_iff_getElem.mp h.ordered i j _ hj hlt

/-- The first response is not behind the last. -/
theorem first_le_last (h : Arrived required ts) : firstOf ts ≤ lastOf ts := by
  obtain ⟨hfirst, hfirst'⟩ := List.getElem?_eq_some_iff.mp (getElem?_first h.length_pos)
  obtain ⟨hlast, hlast'⟩ := List.getElem?_eq_some_iff.mp (getElem?_last h.length_pos)
  rw [← hfirst', ← hlast']
  exact h.le_of_le (Nat.zero_le _) hlast

end Arrived

theorem startNs_eq_ok_iff {r : Record} {start : Int64} :
    startNs r = .ok start ↔ start = r.startNs ∧ inOpenRange r.startNs := by
  rw [startNs]
  by_cases h : inOpenRange r.startNs <;> simp [h, eq_comm]

theorem outputTokens_eq_ok_iff {r : Record} {required n : UInt64} :
    outputTokens r required = .ok n ↔ r.outputTokens = some n ∧ required ≤ n := by
  rw [outputTokens]
  cases r.outputTokens with
  | none => simp
  | some tokens =>
    show (if tokens < required then _ else _) = _ ↔ _
    rw [Option.some.injEq]
    by_cases hlt : tokens < required
    · rw [if_pos hlt]
      constructor
      · intro h
        cases h
      · rintro ⟨rfl, hle⟩
        exact absurd hlt (UInt64.not_lt.mpr hle)
    · rw [if_neg hlt, Except.ok.injEq]
      constructor
      · rintro rfl
        exact ⟨rfl, UInt64.not_lt.mp hlt⟩
      · exact And.left

/-- From the dispatch to one of the responses, which stands at an index. -/
def sinceDispatch (read : List Int64 → Int64) (index : List Int64 → Nat) (r : Record) :
    Except Fault Float := do
  let start ← startNs r
  let ts ← arrivals r 1
  if read ts < start then .error (.outOfOrder (index ts))
  else .ok (nanosToFloat (read ts - start))

theorem requestLatency_eq : requestLatency = sinceDispatch lastOf fun ts => ts.length - 1 := rfl

theorem timeToFirst_eq : timeToFirst = sinceDispatch firstOf fun _ => 0 := rfl

variable {r : Record} {x : Float} {ns : Int64}

theorem sinceDispatch_eq_ok_iff {read : List Int64 → Int64} {index : List Int64 → Nat} :
    sinceDispatch read index r = .ok x ↔ inOpenRange r.startNs ∧ Arrived 1 r.times ∧
      r.startNs ≤ read r.times ∧ nanosToFloat (read r.times - r.startNs) = x := by
  simp only [sinceDispatch, bind_eq_ok_iff, startNs_eq_ok_iff, arrivals_eq_ok_iff]
  constructor
  · rintro ⟨_, ⟨rfl, hstart⟩, _, ⟨rfl, harrived⟩, h⟩
    split at h
    · cases h
    · rename_i hlt
      exact ⟨hstart, harrived, Int64.not_lt.mp hlt, Except.ok.inj h⟩
  · rintro ⟨hstart, harrived, hle, rfl⟩
    exact ⟨_, ⟨rfl, hstart⟩, _, ⟨rfl, harrived⟩, if_neg (Int64.not_lt.mpr hle)⟩

theorem timeToSecond_eq_ok_iff : timeToSecond r = .ok x ↔ Arrived 2 r.times ∧
    nanosToFloat (firstOf (r.times.drop 1) - firstOf r.times) = x := by
  simp [timeToSecond, bind_eq_ok_iff, arrivals_eq_ok_iff, and_assoc]

theorem interTokenLatency_eq_ok_iff : interTokenLatency r = .ok x ↔
    ∃ n, r.outputTokens = some n ∧ 2 ≤ n ∧ Arrived 1 r.times ∧
      nanosToFloat (lastOf r.times - firstOf r.times) / (n - 1).toFloat = x := by
  simp [interTokenLatency, bind_eq_ok_iff, arrivals_eq_ok_iff, outputTokens_eq_ok_iff, and_assoc]

theorem outputLength_eq_ok_iff : outputLength r = .ok x ↔
    ∃ n, r.outputTokens = some n ∧ 1 ≤ n ∧ n.toFloat = x := by
  simp [outputLength, bind_eq_ok_iff, outputTokens_eq_ok_iff, and_assoc]

theorem requestCount_eq_ok_iff : requestCount r = .ok x ↔ Arrived 1 r.times ∧ 1.0 = x := by
  simp [requestCount, bind_eq_ok_iff, arrivals_eq_ok_iff, and_assoc]

theorem requestStart_eq_ok_iff : requestStart r = .ok ns ↔
    Arrived 1 r.times ∧ ns = r.startNs ∧ inOpenRange r.startNs := by
  simp [requestStart, bind_eq_ok_iff, arrivals_eq_ok_iff, startNs_eq_ok_iff, and_assoc]

theorem lastResponse_eq_ok_iff :
    lastResponse r = .ok ns ↔ Arrived 1 r.times ∧ lastOf r.times = ns := by
  simp [lastResponse, bind_eq_ok_iff, arrivals_eq_ok_iff, and_assoc]

end Measure
end BenchMetrics
