import BenchMetrics.Proofs.Measure.Checks

/-! The fault that the check of responses answers with. It goes along the responses once and looks
at two things at each of them, so the fault is that of the first response with which anything is
wrong, and there the range comes before the order. -/
namespace BenchMetrics

theorem not_inOpenRange_iff {t : Int64} :
    ¬ inOpenRange t ↔ t ≤ 0 ∨ t = Int64.maxValue := by
  have hhigh : ¬ t < Int64.maxValue ↔ t = Int64.maxValue := by
    rw [Int64.not_lt]
    exact ⟨fun h => Int64.le_antisymm (Int64.le_maxValue t) h, fun h => h ▸ Int64.le_refl t⟩
  rw [inOpenRange_iff_lt, not_and_or, Int64.not_lt, hhigh]

namespace Measure

/-- What is wrong with the time at an index: it is none to measure from, or else it is earlier than
the time before it. -/
inductive FaultAt (ts : List Int64) : Nat → Fault → Prop
  | missing {i : Nat} {t : Int64} (ht : ts[i]? = some t) (hrange : t ≤ 0 ∨ t = Int64.maxValue) :
    FaultAt ts i (.missingTimestamp "response")
  | early {i : Nat} {earlier t : Int64} (hearlier : ts[i]? = some earlier)
    (ht : ts[i + 1]? = some t) (hrange : 0 < t ∧ t < Int64.maxValue) (hlt : t < earlier) :
    FaultAt ts (i + 1) (.outOfOrder (i + 1))

/-- The fault at the smallest index that has one. -/
def FirstFault (ts : List Int64) (fault : Fault) : Prop :=
  ∃ i, FaultAt ts i fault ∧ ∀ j < i, ∀ other, ¬ FaultAt ts j other

/-- What the check finds at one response. -/
def faultOf (previous : Option Int64) (index : Nat) (t : Int64) : Option Fault :=
  if !inOpenRange t then some (.missingTimestamp "response")
  else if previous.any fun p => t < p then some (.outOfOrder index)
  else none

theorem arrivalFault?_cons (previous : Option Int64) (index : Nat) (e : Extract)
    (es : List Extract) : arrivalFault? previous index (e :: es) =
      (faultOf previous index e.receivedNs).or (arrivalFault? (some e.receivedNs) (index + 1) es) := by
  rw [arrivalFault?, faultOf]
  split
  · rfl
  · split <;> rfl

section
variable {ts before after : List Int64} {t p : Int64} {previous : Option Int64} {i index : Nat}
  {fault : Fault}

theorem faultOf_eq_some_iff : faultOf previous index t = some fault ↔
    ¬ inOpenRange t ∧ fault = .missingTimestamp "response" ∨
      inOpenRange t ∧ ∃ p, previous = some p ∧ t < p ∧ fault = .outOfOrder index := by
  rw [faultOf]
  by_cases hrange : inOpenRange t
  · cases previous with
    | none => simp [hrange]
    | some p => by_cases hlt : t < p <;> simp [hrange, hlt, eq_comm]
  · simp [hrange, eq_comm]

theorem faultAt_iff (ht : ts[i]? = some t) : FaultAt ts i fault ↔
    ¬ inOpenRange t ∧ fault = .missingTimestamp "response" ∨
      inOpenRange t ∧ ∃ p, (∃ k, i = k + 1 ∧ ts[k]? = some p) ∧ t < p ∧ fault = .outOfOrder i := by
  constructor
  · intro h
    cases h with
    | missing ht' hrange =>
      obtain rfl := Option.some.inj (ht.symm.trans ht')
      exact .inl ⟨not_inOpenRange_iff.mpr hrange, rfl⟩
    | early hearlier ht' hrange hlt =>
      obtain rfl := Option.some.inj (ht.symm.trans ht')
      exact .inr ⟨inOpenRange_iff_lt.mpr hrange, _, ⟨_, rfl, hearlier⟩, hlt, rfl⟩
  · rintro (⟨hrange, rfl⟩ | ⟨hrange, p, ⟨k, rfl, hearlier⟩, hlt, rfl⟩)
    · exact .missing ht (not_inOpenRange_iff.mp hrange)
    · exact .early hearlier ht (inOpenRange_iff_lt.mp hrange) hlt

theorem FaultAt.lt_length (h : FaultAt ts i fault) : i < ts.length := by
  cases h with
  | missing ht _ => exact (List.getElem?_eq_some_iff.mp ht).1
  | early _ ht _ _ => exact (List.getElem?_eq_some_iff.mp ht).1

/-- The check finds at the next response what is wrong with its time. -/
theorem faultOf_iff_faultAt : faultOf before.getLast? before.length t = some fault ↔
    FaultAt (before ++ t :: after) before.length fault := by
  have ht : (before ++ t :: after)[before.length]? = some t := by simp
  -- the time before the next one is the last that was looked at
  have hlast (p : Int64) : (∃ k, before.length = k + 1 ∧ (before ++ t :: after)[k]? = some p) ↔
      before.getLast? = some p := by
    rcases before.eq_nil_or_concat with rfl | ⟨front, last, rfl⟩ <;> simp
  rw [faultOf_eq_some_iff, faultAt_iff ht]
  simp only [hlast]

/-- Behind times that were looked at, the check answers with the first fault that is left. -/
theorem arrivalFault?_eq_some_iff (before : List Int64) (es : List Extract) :
    arrivalFault? before.getLast? before.length es = some fault ↔
      ∃ i, before.length ≤ i ∧ FaultAt (before ++ es.map (·.receivedNs)) i fault ∧
        ∀ j, before.length ≤ j → j < i →
          ∀ other, ¬ FaultAt (before ++ es.map (·.receivedNs)) j other := by
  -- over the responses that are left, each of which joins the times in front
  induction es generalizing before with
  | nil =>
    rw [arrivalFault?, List.map_nil, List.append_nil]
    constructor
    · intro h
      cases h
    · rintro ⟨i, hi, hfault, _⟩
      exact absurd hfault.lt_length (Nat.not_lt.mpr hi)
  | cons e es ih =>
    have hnext : arrivalFault? (some e.receivedNs) (before.length + 1) es =
        arrivalFault? (before ++ [e.receivedNs]).getLast? (before ++ [e.receivedNs]).length es := by
      rw [List.getLast?_concat, List.length_append, List.length_singleton]
    rw [arrivalFault?_cons, List.map_cons]
    cases hstep : faultOf before.getLast? before.length e.receivedNs with
    | some found =>
      rw [Option.some_or, Option.some.injEq]
      constructor
      · rintro rfl
        exact ⟨_, Nat.le_refl _, faultOf_iff_faultAt.mp hstep, by omega⟩
      · rintro ⟨i, hi, hfault, hfirst⟩
        rcases Nat.eq_or_lt_of_le hi with rfl | hlt
        · exact Option.some.inj (hstep.symm.trans (faultOf_iff_faultAt.mpr hfault))
        · exact absurd (faultOf_iff_faultAt.mp hstep) (hfirst _ (Nat.le_refl _) hlt found)
    | none =>
      have hfine (other : Fault) :
          ¬ FaultAt (before ++ e.receivedNs :: es.map (·.receivedNs)) before.length other := by
        intro hfault
        rw [faultOf_iff_faultAt.mpr hfault] at hstep
        cases hstep
      rw [Option.none_or, hnext, ih, List.append_assoc, List.singleton_append, List.length_append,
        List.length_singleton]
      constructor
      · rintro ⟨i, hi, hfault, hfirst⟩
        refine ⟨i, by omega, hfault, fun j hj hlt => ?_⟩
        rcases Nat.eq_or_lt_of_le hj with rfl | hbehind
        · exact hfine
        · exact hfirst j hbehind hlt
      · rintro ⟨i, hi, hfault, hfirst⟩
        have hne : before.length ≠ i := by
          rintro rfl
          exact hfine fault hfault
        exact ⟨i, by omega, hfault, fun j hj => hfirst j (by omega)⟩

theorem firstFault_iff {es : List Extract} :
    FirstFault (es.map (·.receivedNs)) fault ↔ arrivalFault? none 0 es = some fault := by
  have h := @arrivalFault?_eq_some_iff fault [] es
  simpa [FirstFault] using h.symm

end

variable {r : Record} {required : Nat}

theorem responses_eq_error_iff {fault : Fault} : responses r required = .error fault ↔
    r.extracts.length < max required 1 ∧
        fault = .tooFewResponses (max required 1) r.extracts.length ∨
      max required 1 ≤ r.extracts.length ∧ FirstFault r.times fault := by
  rw [responses, Record.times, firstFault_iff]
  by_cases hlength : r.extracts.length < max required 1
  · have hnot : ¬ max required 1 ≤ r.extracts.length := Nat.not_le.mpr hlength
    simp [hlength, hnot, eq_comm]
  · have henough : max required 1 ≤ r.extracts.length := Nat.not_lt.mp hlength
    rw [if_neg hlength]
    cases arrivalFault? none 0 r.extracts with
    | none => simp [hlength]
    | some found => simp [hlength, henough]

/-- What the check answers with: all responses, or what is wrong with them. -/
structure Checked (r : Record) (required : Nat) : Prop where
  accepts : ∀ es, responses r required = .ok es ↔
    es = r.extracts ∧ max required 1 ≤ r.extracts.length ∧
      (∀ e ∈ r.extracts, 0 < e.receivedNs ∧ e.receivedNs < Int64.maxValue) ∧
      r.times.Pairwise (· ≤ ·)
  rejects : ∀ fault, responses r required = .error fault ↔
    r.extracts.length < max required 1 ∧
        fault = .tooFewResponses (max required 1) r.extracts.length ∨
      max required 1 ≤ r.extracts.length ∧ FirstFault r.times fault

theorem checked (r : Record) (required : Nat) : Checked r required where
  accepts es := by
    have hrange : (∀ t ∈ r.times, inOpenRange t) ↔
        ∀ e ∈ r.extracts, 0 < e.receivedNs ∧ e.receivedNs < Int64.maxValue := by
      simp only [Record.times, List.forall_mem_map, inOpenRange_iff_lt]
    have hlength : r.times.length = r.extracts.length := List.length_map _
    rw [responses_eq_ok_iff, ← hrange, ← hlength]
    exact ⟨fun ⟨h, harrived⟩ => ⟨h, harrived.enough, harrived.inRange, harrived.ordered⟩,
      fun ⟨h, henough, hin, hordered⟩ => ⟨h, henough, hin, hordered⟩⟩
  rejects _ := responses_eq_error_iff

/-- Nothing is wrong with a time in range but that it may be early. -/
theorem not_firstFault_missing {ts : List Int64} {what : String} (h : ∀ t ∈ ts, inOpenRange t) :
    ¬ FirstFault ts (.missingTimestamp what) := by
  rintro ⟨i, hfault, _⟩
  cases hfault with
  | missing ht hrange =>
    exact absurd (h _ (List.mem_of_getElem? ht)) (not_inOpenRange_iff.mpr hrange)

theorem not_firstFault_tooFew {ts : List Int64} {least actual : Nat} :
    ¬ FirstFault ts (.tooFewResponses least actual) := by
  rintro ⟨i, hfault, _⟩
  cases hfault

/-- The check lets through what is enough, in range and in order, and otherwise answers with the
first fault. Of a usable record the dispatch can be measured from, no time is missing, and too few
responses are there only for a measurement that takes more than one. -/
theorem responses_checked :
    (∀ r required, Checked r required) ∧
    (∀ r : Record, r.isUsable → startNs r = .ok r.startNs ∧
      ∀ required what, responses r required ≠ .error (.missingTimestamp what)) ∧
    ∀ required, (∃ r : Record, r.isUsable ∧ ∃ least actual,
      responses r required = .error (.tooFewResponses least actual)) ↔ 2 ≤ required := by
  refine ⟨checked, fun r hr => ?_, fun required => ⟨?_, fun htwo => ?_⟩⟩
  · obtain ⟨_, hstart, _, hreceived⟩ := Record.isUsable_iff.mp hr
    have hrange : ∀ t ∈ r.times, inOpenRange t := List.forall_mem_map.mpr hreceived
    refine ⟨startNs_eq_ok_iff.mpr ⟨rfl, hstart⟩, fun required what h => ?_⟩
    rcases responses_eq_error_iff.mp h with ⟨_, hfew⟩ | ⟨_, hfirst⟩
    · cases hfew
    · exact not_firstFault_missing hrange hfirst
  · rintro ⟨r, hr, least, actual, h⟩
    have hsome := List.length_pos_iff.mpr (Record.isUsable_iff.mp hr).2.2.1
    rcases responses_eq_error_iff.mp h with ⟨hlength, _⟩ | ⟨_, hfirst⟩
    · omega
    · exact absurd hfirst not_firstFault_tooFew
  · -- one response is not enough for two
    refine ⟨.plain (.start .null 1) none [.make 2 none], rfl, _, _, responses_eq_error_iff.mpr
      (.inl ⟨?_, rfl⟩)⟩
    show 1 < max required 1
    omega

/-- A time that is early in front of one that is missing, and one that is both. -/
theorem responses_checked_turned :
    responses (.plain (.start .null 10) none
      [.make 20 none, .make 15 none, .make Int64.maxValue none]) 2 = .error (.outOfOrder 1) ∧
    responses (.plain (.start .null 10) none [.make 20 none, .make 0 none, .make 15 none]) 2 =
      .error (.missingTimestamp "response") ∧
    startNs (.plain (.start .null 10) none [.make 20 none, .make 15 none]) = .ok 10 ∧
    responses (.plain (.start .null 10) none [.make 20 none, .make 15 none]) 1 ≠
      .error (.missingTimestamp "response") := by
  obtain ⟨hchecked, husable, _⟩ := responses_checked
  have hfine (later : List Int64) : ∀ j < 1, ∀ other, ¬ FaultAt (20 :: later) j other := by
    intro j hj other hfault
    cases hfault with
    | missing ht hrange =>
      obtain rfl : j = 0 := by omega
      cases ht
      exact absurd hrange (by decide)
    | early => omega
  obtain ⟨hstart, hmissing⟩ :=
    husable (.plain (.start .null 10) none [.make 20 none, .make 15 none]) (by decide)
  refine ⟨?_, ?_, hstart, hmissing 1 "response"⟩
  · exact ((hchecked _ 2).rejects _).mpr (.inr ⟨by decide, 1,
      .early rfl rfl (by decide) (by decide), hfine _⟩)
  · exact ((hchecked _ 2).rejects _).mpr (.inr ⟨by decide, 1, .missing rfl (by decide), hfine _⟩)

end Measure
end BenchMetrics
