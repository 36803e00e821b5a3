import BenchMetrics.Proofs.Measure.Checks

/-! Measurements that trust nothing. They break off where an index is out of range, where a
difference is below zero or leaves its 64 bits, and where nothing is left to divide by. Whatever
the record is, each comes to what the plain measurement comes to, and so never breaks off. -/
namespace BenchMetrics.Measure

namespace Careful

variable {ε : Type}

/-- Goes on with a value under a condition, and breaks off without it. -/
def provided {α : Type} (p : Prop) [Decidable p] (a : α) : OptionT (Except ε) α :=
  .mk (.ok (if p then some a else none))

/-- The time at an index. -/
def pick (ts : List Int64) (index : Nat) : OptionT (Except ε) Int64 := .mk (.ok ts[index]?)

/-- From one moment to another that is not earlier. -/
def elapsed (earlier later : Int64) : OptionT (Except ε) Int64 :=
  provided ((later - earlier).toInt = later.toInt - earlier.toInt ∧ 0 ≤ (later - earlier).toInt)
    (later - earlier)

/-- A number less one, where that leaves at least one. -/
def lessOne (n : UInt64) : OptionT (Except ε) UInt64 :=
  provided ((n - 1).toNat + 1 = n.toNat ∧ 1 ≤ (n - 1).toNat) (n - 1)

/-- From the dispatch to the response at an index. -/
def sinceDispatch (index : List Int64 → Nat) (r : Record) : OptionT (Except Fault) Float := do
  let start ← startNs r
  let ts ← arrivals r 1
  let t ← pick ts (index ts)
  if t < start then throwThe Fault (.outOfOrder (index ts))
  else return nanosToFloat (← elapsed start t)

def requestLatency (r : Record) : OptionT (Except Fault) Float :=
  sinceDispatch (fun ts => ts.length - 1) r

def timeToFirst (r : Record) : OptionT (Except Fault) Float := sinceDispatch (fun _ => 0) r

def timeToSecond (r : Record) : OptionT (Except Fault) Float := do
  let ts ← arrivals r 2
  let second ← pick ts 1
  let first ← pick ts 0
  return nanosToFloat (← elapsed first second)

def interTokenLatency (r : Record) : OptionT (Except Fault) Float := do
  let tokens ← outputTokens r 2
  let ts ← arrivals r 1
  let last ← pick ts (ts.length - 1)
  let first ← pick ts 0
  let time ← elapsed first last
  return nanosToFloat time / (← lessOne tokens).toFloat

def span (owner first last : Tag) (view : View) : OptionT (Except MetricError) Float := do
  let first ← view.timestamp owner first
  let last ← view.timestamp owner last
  if last < first then throwThe MetricError (.underivable owner (.reversedSpan first last))
  else return nanosToFloat (← elapsed first last)

section
variable {ts : List Int64} {a b t : Int64} {index : Nat}

theorem pick_of_getElem? (h : ts[index]? = some t) :
    pick ts index = (pure t : OptionT (Except ε) Int64) := by
  rw [pick, h]
  rfl

theorem elapsed_of_le (ha : inOpenRange a) (hb : inOpenRange b) (hle : a ≤ b) :
    elapsed a b = (pure (b - a) : OptionT (Except ε) Int64) := by
  have hexact := toInt_sub_of_inOpenRange hb ha
  have hnonneg : 0 ≤ (b - a).toInt := by
    rw [Int64.le_iff_toInt_le] at hle
    omega
  rw [elapsed, provided, if_pos ⟨hexact, hnonneg⟩]
  rfl

theorem lessOne_of_le {n : UInt64} (h : 2 ≤ n) :
    lessOne n = (pure (n - 1) : OptionT (Except ε) UInt64) := by
  have htwo : 2 ≤ n.toNat := UInt64.le_iff_toNat_le.mp h
  have hone : (1 : UInt64) ≤ n := UInt64.le_iff_toNat_le.mpr (Nat.le_of_lt htwo)
  have hsub : (n - 1).toNat = n.toNat - 1 := UInt64.toNat_sub_of_le _ _ hone
  rw [lessOne, provided, if_pos (by omega)]
  rfl

theorem elapsed_of_arrived {required i j : Nat} (h : Arrived required ts) (hij : i ≤ j)
    (hi : ts[i]? = some a) (hj : ts[j]? = some b) :
    elapsed a b = (pure (b - a) : OptionT (Except ε) Int64) := by
  obtain ⟨hjlt, rfl⟩ := List.getElem?_eq_some_iff.mp hj
  obtain ⟨hilt, rfl⟩ := List.getElem?_eq_some_iff.mp hi
  apply elapsed_of_le
  · exact h.inRange _ (List.getElem_mem hilt)
  · exact h.inRange _ (List.getElem_mem hjlt)
  · exact h.le_of_le hij hjlt

end

variable (r : Record)

theorem run_sinceDispatch {read : List Int64 → Int64} {index : List Int64 → Nat}
    (hindex : ∀ ts : List Int64, 0 < ts.length → ts[index ts]? = some (read ts)) :
    (sinceDispatch index r).run = (Measure.sinceDispatch read index r).map some := by
  rw [sinceDispatch, Measure.sinceDispatch]
  -- where a check fails both end with its fault, so that what is left is behind both checks
  cases hstart : startNs r with
  | error fault => rfl
  | ok start =>
    cases harrivals : arrivals r 1 with
    | error fault => rfl
    | ok ts =>
      obtain ⟨rfl, hrange⟩ := startNs_eq_ok_iff.mp hstart
      obtain ⟨rfl, harrived⟩ := arrivals_eq_ok_iff.mp harrivals
      have hread := hindex r.times harrived.length_pos
      have hin := harrived.inRange _ (List.mem_of_getElem? hread)
      show (pick r.times (index r.times) >>= fun t => _).run = (if _ then _ else _ : Except _ _).map some
      rw [pick_of_getElem? hread, pure_bind]
      by_cases hlt : read r.times < r.startNs
      · rw [if_pos hlt, if_pos hlt]
        rfl
      · -- the response is not before the dispatch, and both are in range
        rw [if_neg hlt, if_neg hlt, elapsed_of_le hrange hin (Int64.not_lt.mp hlt)]
        rfl

theorem run_requestLatency : (requestLatency r).run = (Measure.requestLatency r).map some :=
  run_sinceDispatch r fun _ => getElem?_last

theorem run_timeToFirst : (timeToFirst r).run = (Measure.timeToFirst r).map some :=
  run_sinceDispatch r fun _ => getElem?_first

theorem run_timeToSecond : (timeToSecond r).run = (Measure.timeToSecond r).map some := by
  rw [timeToSecond, Measure.timeToSecond]
  cases harrivals : arrivals r 2 with
  | error fault => rfl
  | ok ts =>
    obtain ⟨rfl, harrived⟩ := arrivals_eq_ok_iff.mp harrivals
    have hsecond := getElem?_second harrived.enough
    have hfirst := getElem?_first harrived.length_pos
    show (pick r.times 1 >>= fun second => pick r.times 0 >>= fun first => _).run = _
    rw [pick_of_getElem? hsecond, pure_bind, pick_of_getElem? hfirst, pure_bind,
      elapsed_of_arrived harrived (Nat.zero_le 1) hfirst hsecond]
    rfl

theorem run_interTokenLatency :
    (interTokenLatency r).run = (Measure.interTokenLatency r).map some := by
  rw [interTokenLatency, Measure.interTokenLatency]
  cases htokens : outputTokens r 2 with
  | error fault => rfl
  | ok tokens =>
    cases harrivals : arrivals r 1 with
    | error fault => rfl
    | ok ts =>
      obtain ⟨rfl, harrived⟩ := arrivals_eq_ok_iff.mp harrivals
      have hlast := getElem?_last harrived.length_pos
      have hfirst := getElem?_first harrived.length_pos
      show (pick r.times (r.times.length - 1) >>= fun last =>
        pick r.times 0 >>= fun first => _).run = _
      rw [pick_of_getElem? hlast, pure_bind, pick_of_getElem? hfirst, pure_bind,
        elapsed_of_arrived harrived (Nat.zero_le _) hfirst hlast, pure_bind,
        lessOne_of_le (outputTokens_eq_ok_iff.mp htokens).2]
      rfl

/-- A view that shows no timestamp but ones that can be measured from. -/
def Sound (view : View) : Prop := ∀ x ∈ view, ∀ ns, x.timestamp = some ns → inOpenRange ns

theorem Sound.of_timestamp {view : View} (h : Sound view) {owner t : Tag} {ns : Int64}
    (hns : view.timestamp owner t = .ok ns) : inOpenRange ns := by
  rw [View.timestamp, View.demand] at hns
  cases hread : (view.find? t).bind (·.timestamp) with
  | none =>
    rw [hread] at hns
    cases hns
  | some found =>
    rw [hread] at hns
    obtain ⟨x, hx, hfound⟩ := Option.bind_eq_some_iff.mp hread
    rw [← Except.ok.inj hns]
    exact h x (List.mem_of_find?_eq_some hx) found hfound

theorem run_span {view : View} (h : Sound view) (owner first last : Tag) :
    (span owner first last view).run = (Measure.span owner first last view).map some := by
  rw [span, Measure.span]
  cases hfirst : view.timestamp owner first with
  | error err => rfl
  | ok lo =>
    cases hlast : view.timestamp owner last with
    | error err => rfl
    | ok hi =>
      show OptionT.run (if hi < lo then _ else _) =
        (if hi < lo then _ else _ : Except MetricError Float).map some
      by_cases hlt : hi < lo
      · rw [if_pos hlt, if_pos hlt]
        rfl
      · rw [if_neg hlt, if_neg hlt,
          elapsed_of_le (h.of_timestamp hfirst) (h.of_timestamp hlast) (Int64.not_lt.mp hlt)]
        rfl

end Careful
end BenchMetrics.Measure
