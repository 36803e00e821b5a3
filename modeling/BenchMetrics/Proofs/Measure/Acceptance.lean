import BenchMetrics.Proofs.Measure.Checks

/-! What a measurement accepts. Each accepts a record by some of a few conditions, on its times and
on its tokens, so that one measurement accepts no record that another rejects where the conditions
of the other are among its own. -/
namespace BenchMetrics.Measure

theorem isOk_iff {ε α : Type} {x : Except ε α} : x.isOk ↔ ∃ a, x = .ok a := by
  cases x with
  | error fault => simp [Except.isOk, Except.toBool]
  | ok a => simp [Except.isOk, Except.toBool]

variable {r : Record}

theorem isOk_requestCount : (requestCount r).isOk ↔ Arrived 1 r.times := by
  simp [isOk_iff, requestCount_eq_ok_iff]

theorem isOk_requestStart : (requestStart r).isOk ↔ Arrived 1 r.times ∧ inOpenRange r.startNs := by
  simp [isOk_iff, requestStart_eq_ok_iff]

theorem isOk_lastResponse : (lastResponse r).isOk ↔ Arrived 1 r.times := by
  simp [isOk_iff, lastResponse_eq_ok_iff]

theorem isOk_requestLatency : (requestLatency r).isOk ↔
    inOpenRange r.startNs ∧ Arrived 1 r.times ∧ r.startNs ≤ lastOf r.times := by
  simp [isOk_iff, requestLatency_eq, sinceDispatch_eq_ok_iff]

theorem isOk_timeToFirst : (timeToFirst r).isOk ↔
    inOpenRange r.startNs ∧ Arrived 1 r.times ∧ r.startNs ≤ firstOf r.times := by
  simp [isOk_iff, timeToFirst_eq, sinceDispatch_eq_ok_iff]

theorem isOk_timeToSecond : (timeToSecond r).isOk ↔ Arrived 2 r.times := by
  simp [isOk_iff, timeToSecond_eq_ok_iff]

theorem isOk_interTokenLatency : (interTokenLatency r).isOk ↔
    ∃ n, r.outputTokens = some n ∧ 2 ≤ n ∧ Arrived 1 r.times := by
  simp only [isOk_iff, interTokenLatency_eq_ok_iff]
  constructor
  · rintro ⟨_, n, hn, htwo, harrived, _⟩
    exact ⟨n, hn, htwo, harrived⟩
  · rintro ⟨n, hn, htwo, harrived⟩
    exact ⟨_, n, hn, htwo, harrived, rfl⟩

theorem isOk_outputLength : (outputLength r).isOk ↔ ∃ n, r.outputTokens = some n ∧ 1 ≤ n := by
  simp only [isOk_iff, outputLength_eq_ok_iff]
  constructor
  · rintro ⟨_, n, hn, hone, _⟩
    exact ⟨n, hn, hone⟩
  · rintro ⟨n, hn, hone⟩
    exact ⟨_, n, hn, hone, rfl⟩

/-- A usable record can be measured from its dispatch, so that these three differ in nothing. -/
theorem isOk_answered (h : r.isUsable) : (requestCount r).isOk = (requestStart r).isOk ∧
    (requestStart r).isOk = (lastResponse r).isOk := by
  have hstart : inOpenRange r.startNs := (Record.isUsable_iff.mp h).2.1
  constructor
  · rw [Bool.eq_iff_iff, isOk_requestCount, isOk_requestStart, and_iff_left hstart]
  · rw [Bool.eq_iff_iff, isOk_requestStart, isOk_lastResponse, and_iff_left hstart]

/-- A first response not before the dispatch has no last response before it either. -/
theorem isOk_requestLatency_of_timeToFirst (h : (timeToFirst r).isOk) :
    (requestLatency r).isOk := by
  obtain ⟨hstart, harrived, hle⟩ := isOk_timeToFirst.mp h
  exact isOk_requestLatency.mpr ⟨hstart, harrived, Int64.le_trans hle harrived.first_le_last⟩

theorem isOk_requestCount_of_requestLatency (h : (requestLatency r).isOk) :
    (requestCount r).isOk := by
  obtain ⟨_, harrived, _⟩ := isOk_requestLatency.mp h
  exact isOk_requestCount.mpr harrived

theorem isOk_requestCount_of_timeToSecond (h : (timeToSecond r).isOk) :
    (requestCount r).isOk := by
  have harrived := isOk_timeToSecond.mp h
  exact isOk_requestCount.mpr (harrived.mono (Nat.le_succ 1))

theorem isOk_requestCount_of_interTokenLatency (h : (interTokenLatency r).isOk) :
    (requestCount r).isOk := by
  obtain ⟨_, _, _, harrived⟩ := isOk_interTokenLatency.mp h
  exact isOk_requestCount.mpr harrived

theorem isOk_outputLength_of_interTokenLatency (h : (interTokenLatency r).isOk) :
    (outputLength r).isOk := by
  obtain ⟨n, hn, htwo, _⟩ := isOk_interTokenLatency.mp h
  exact isOk_outputLength.mpr ⟨n, hn, UInt64.le_trans (by decide) htwo⟩

/-- What is measured from the dispatch is exact. -/
theorem sinceDispatch_eq {read : List Int64 → Int64} {index : List Int64 → Nat}
    (hread : ∀ ts : List Int64, 0 < ts.length → read ts ∈ ts) (h : (sinceDispatch read index r).isOk) :
    sinceDispatch read index r =
      .ok (Float.ofInt ((read r.times).toInt - r.startNs.toInt)) := by
  obtain ⟨x, hx⟩ := isOk_iff.mp h
  obtain ⟨hstart, harrived, _, rfl⟩ := sinceDispatch_eq_ok_iff.mp hx
  have hin := harrived.inRange _ (hread r.times harrived.length_pos)
  rw [hx, nanosToFloat, toInt_sub_of_inOpenRange hin hstart]

/-- Where there is a time to the first response there is one to the last, which is no shorter. -/
theorem latencies_of_timeToFirst (h : (timeToFirst r).isOk) :
    timeToFirst r = .ok (Float.ofInt ((firstOf r.times).toInt - r.startNs.toInt)) ∧
    requestLatency r = .ok (Float.ofInt ((lastOf r.times).toInt - r.startNs.toInt)) ∧
    0 ≤ (firstOf r.times).toInt - r.startNs.toInt ∧
    (firstOf r.times).toInt - r.startNs.toInt ≤ (lastOf r.times).toInt - r.startNs.toInt := by
  obtain ⟨_, harrived, hle⟩ := isOk_timeToFirst.mp h
  have hlast := harrived.first_le_last
  rw [Int64.le_iff_toInt_le] at hle hlast
  refine ⟨?_, ?_, by omega, by omega⟩
  · apply sinceDispatch_eq _ h
    intro ts hpos
    exact List.mem_of_getElem? (getElem?_first hpos)
  · apply sinceDispatch_eq _ (isOk_requestLatency_of_timeToFirst h)
    intro ts hpos
    exact List.mem_of_getElem? (getElem?_last hpos)

end BenchMetrics.Measure
