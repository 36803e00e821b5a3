import BenchMetrics.Request.Timing

/-! Timings in whole numbers. The timings of a usable request are exact: what is taken as a plain
difference of 64 bits never leaves them, and what may leave them is absent if it would. A request
that is not usable has no timings. -/
namespace BenchMetrics

namespace Reply

variable {xs : List Reply}

/-- Replies whose distances from each other stay within 64 bits. -/
def Near (xs : List Reply) : Prop := ∀ a ∈ xs, ∀ b ∈ xs,
  (a.receivedNs - b.receivedNs).toInt = a.receivedNs.toInt - b.receivedNs.toInt

theorem exists_of_two_le (h : 2 ≤ xs.length) :
    ∃ first second rest, xs = first :: second :: rest := by
  rcases xs with _ | ⟨first, _ | ⟨second, rest⟩⟩
  · cases h
  · exact absurd h (Nat.lt_irrefl 1)
  · exact ⟨first, second, rest, rfl⟩

theorem receivedNs_last (first second : Reply) (rest : List Reply) :
    (first :: second :: rest).getLast?.map receivedNs =
      some (((second :: rest).map receivedNs).getLastD second.receivedNs) := by
  have hsome := List.getLast?_eq_some_getLast (List.cons_ne_nil second.receivedNs
    (rest.map receivedNs))
  rw [List.getLast?_cons_cons, ← List.getLast?_map, List.map_cons, List.getLastD_eq_getLast?, hsome]
  rfl

end Reply

namespace Request

variable {r : Request}

/-- What the timings of a request come to, as differences of whole numbers. -/
structure Timed (r : Request) : Prop where
  exact : ∀ a ∈ r.startNs :: r.replies.map Reply.receivedNs,
    ∀ b ∈ r.startNs :: r.replies.map Reply.receivedNs, (a - b).toInt = a.toInt - b.toInt
  answered : 0 < r.replies.length
  first : r.timeToFirst.map Int64.toInt =
    some (r.replies[0].receivedNs.toInt - r.startNs.toInt)
  second : r.timeToSecond.map Int64.toInt = if _ : 2 ≤ r.replies.length then
    some (r.replies[1].receivedNs.toInt - r.replies[0].receivedNs.toInt) else none
  last : r.timeToLast.map Int64.toInt =
    (r.endNs.map fun ns => ns.toInt - r.startNs.toInt).filter fitsSigned
  /-- The first reply is measured from the first byte, -/
  token_first : (r.tokenLatency 0).map Int64.toInt =
    (r.firstByteNs.map fun ns => r.replies[0].receivedNs.toInt - ns.toInt).filter fitsSigned
  /-- and any other from the reply before. -/
  token_next : ∀ i, ∀ _ : i + 1 < r.replies.length, (r.tokenLatency (i + 1)).map Int64.toInt =
    some (r.replies[i + 1].receivedNs.toInt - r.replies[i].receivedNs.toInt)
  token_beyond : ∀ i, r.replies.length ≤ i → r.tokenLatency i = none
  /-- All replies carry tokens, but for a last one that ends the stream. -/
  tokens : (∃ final, r.replies = r.tokenReplies ++ [final] ∧ final.endsStream) ∨
    (r.tokenReplies = r.replies ∧ ∀ final ∈ r.replies.getLast?, ¬ final.endsStream)
  spacing : r.interTokenLatency = if _ : 2 ≤ r.tokenReplies.length then
    some (Float.ofInt (r.tokenReplies[r.tokenReplies.length - 1].receivedNs.toInt -
      r.tokenReplies[0].receivedNs.toInt) / Float.ofNat (r.tokenReplies.length - 1)) else none

theorem usable_ranges (h : r.isUsable) : inOpenRange r.startNs ∧ r.replies ≠ [] ∧
    ∀ reply ∈ r.replies, inOpenRange reply.receivedNs := by
  simp only [isUsable, Bool.and_eq_true, Bool.not_eq_true', List.isEmpty_eq_false_iff,
    List.all_eq_true] at h
  obtain ⟨⟨⟨_, hstart⟩, hsome⟩, hreceived⟩ := h
  exact ⟨hstart, hsome, hreceived⟩

theorem arrivals?_of_usable (h : r.isUsable) :
    r.arrivals? = some (r.replies.map Reply.receivedNs) := by
  rw [arrivals?, if_pos h]

theorem arrivals?_of_unusable (h : ¬ r.isUsable) : r.arrivals? = none := by
  rw [arrivals?, if_neg h]

theorem exact_of_usable (h : r.isUsable) : ∀ a ∈ r.startNs :: r.replies.map Reply.receivedNs,
    ∀ b ∈ r.startNs :: r.replies.map Reply.receivedNs, (a - b).toInt = a.toInt - b.toInt := by
  obtain ⟨hstart, _, hreceived⟩ := usable_ranges h
  -- differences of positive numbers stay within their width
  have hrange : ∀ a ∈ r.startNs :: r.replies.map Reply.receivedNs, inOpenRange a := by
    intro a ha
    rcases List.mem_cons.mp ha with rfl | ha
    · exact hstart
    · obtain ⟨reply, hreply, rfl⟩ := List.mem_map.mp ha
      exact hreceived reply hreply
  exact fun a ha b hb => toInt_sub_of_inOpenRange (hrange a ha) (hrange b hb)

theorem near_of_usable (h : r.isUsable) {xs : List Reply} (hxs : xs ⊆ r.replies) :
    Reply.Near xs := fun _ ha _ hb =>
  exact_of_usable h _ (.tail _ (List.mem_map_of_mem (hxs ha))) _
    (.tail _ (List.mem_map_of_mem (hxs hb)))

theorem length_pos_of_usable (h : r.isUsable) : 0 < r.replies.length :=
  List.length_pos_iff.mpr (usable_ranges h).2.1

theorem timeToFirst_of_usable (h : r.isUsable) (hpos : 0 < r.replies.length) :
    r.timeToFirst.map Int64.toInt =
      some (r.replies[0].receivedNs.toInt - r.startNs.toInt) := by
  have hexact := exact_of_usable h r.replies[0].receivedNs
    (.tail _ (List.mem_map_of_mem (List.getElem_mem hpos))) r.startNs (.head _)
  rw [timeToFirst, arrivals?_of_usable h, Option.bind_some, List.head?_map,
    List.head?_eq_getElem?, List.getElem?_eq_getElem hpos, ← hexact]
  rfl

theorem timeToSecond_of_usable (h : r.isUsable) :
    r.timeToSecond.map Int64.toInt = if _ : 2 ≤ r.replies.length then
      some (r.replies[1].receivedNs.toInt - r.replies[0].receivedNs.toInt) else none := by
  have hnear := near_of_usable h fun _ => id
  rw [timeToSecond, arrivals?_of_usable h, Option.bind_some]
  by_cases htwo : 2 ≤ r.replies.length
  · obtain ⟨first, second, rest, hsplit⟩ := Reply.exists_of_two_le htwo
    have hfirst : r.replies[0] = first := List.getElem_of_eq hsplit _
    have hsecond : r.replies[1] = second := List.getElem_of_eq hsplit _
    rw [hsplit] at hnear
    rw [dif_pos htwo, hfirst, hsecond, hsplit]
    exact congrArg some (hnear second (.tail _ (.head _)) first (.head _))
  · rw [dif_neg htwo]
    generalize r.replies = xs at htwo
    rcases xs with _ | ⟨first, _ | ⟨second, rest⟩⟩
    · rfl
    · rfl
    · exact absurd (Nat.le_add_left 2 rest.length) htwo

theorem timeToLast_of_usable (h : r.isUsable) : r.timeToLast.map Int64.toInt =
    (r.endNs.map fun ns => ns.toInt - r.startNs.toInt).filter fitsSigned := by
  rw [timeToLast, arrivals?_of_usable h, Option.bind_some]
  cases r.endNs with
  | none => rfl
  | some ns => exact toInt_checkedSub ns r.startNs

theorem tokenLatency_of_usable (h : r.isUsable) (i : Nat) : r.tokenLatency i =
    r.replies[i]?.bind fun reply =>
      (if i = 0 then r.firstByteNs else (r.replies[i - 1]?).map Reply.receivedNs).bind
        (checkedSub reply.receivedNs) := by
  rw [tokenLatency, arrivals?_of_usable h, Option.bind_some, List.getElem?_map, List.getElem?_map,
    Option.bind_map]
  rfl

theorem tokenLatency_zero (h : r.isUsable) (hpos : 0 < r.replies.length) :
    (r.tokenLatency 0).map Int64.toInt =
      (r.firstByteNs.map fun ns => r.replies[0].receivedNs.toInt - ns.toInt).filter fitsSigned := by
  rw [tokenLatency_of_usable h, List.getElem?_eq_getElem hpos, Option.bind_some, if_pos rfl]
  cases r.firstByteNs with
  | none => rfl
  | some ns => exact toInt_checkedSub r.replies[0].receivedNs ns

theorem tokenLatency_succ (h : r.isUsable) (i : Nat) (hi : i + 1 < r.replies.length) :
    (r.tokenLatency (i + 1)).map Int64.toInt =
      some (r.replies[i + 1].receivedNs.toInt - r.replies[i].receivedNs.toInt) := by
  have hexact := near_of_usable h (fun _ => id) _ (List.getElem_mem hi) _
    (List.getElem_mem (Nat.lt_of_succ_lt hi))
  -- the difference is checked all the same, and the check goes through
  have hsub : checkedSub r.replies[i + 1].receivedNs r.replies[i].receivedNs =
      some (r.replies[i + 1].receivedNs - r.replies[i].receivedNs) :=
    checkedSub_eq_some_iff.mpr hexact
  rw [tokenLatency_of_usable h, List.getElem?_eq_getElem hi, Option.bind_some,
    if_neg (Nat.succ_ne_zero i), Nat.add_sub_cancel,
    List.getElem?_eq_getElem (Nat.lt_of_succ_lt hi), Option.map_some, Option.bind_some, hsub,
    Option.map_some, hexact]

theorem tokenLatency_beyond (h : r.isUsable) (i : Nat) (hi : r.replies.length ≤ i) :
    r.tokenLatency i = none := by
  rw [tokenLatency_of_usable h, List.getElem?_eq_none hi, Option.bind_none]

theorem tokenReplies_cases (r : Request) :
    (∃ final, r.replies = r.tokenReplies ++ [final] ∧ final.endsStream) ∨
      (r.tokenReplies = r.replies ∧ ∀ final ∈ r.replies.getLast?, ¬ final.endsStream) := by
  rw [tokenReplies]
  cases hlast : r.replies.getLast? with
  | none => exact Or.inr ⟨rfl, by simp⟩
  | some final =>
    by_cases hends : final.endsStream
    · have hsplit : r.replies = r.replies.dropLast ++ [final] := by
        obtain ⟨front, hfront⟩ := List.getLast?_eq_some_iff.mp hlast
        rw [hfront, List.dropLast_concat]
      rw [Option.any_some, if_pos hends]
      exact Or.inl ⟨final, hsplit, hends⟩
    · rw [Option.any_some, if_neg hends]
      exact Or.inr ⟨rfl, by simpa using hends⟩

theorem tokenReplies_prefix (r : Request) : r.tokenReplies <+: r.replies := by
  rcases r.tokenReplies_cases with ⟨final, hsplit, _⟩ | ⟨hall, _⟩
  · exact ⟨[final], hsplit.symm⟩
  · exact ⟨[], by rw [hall, List.append_nil]⟩

theorem tokenReplies_subset (r : Request) : r.tokenReplies ⊆ r.replies :=
  r.tokenReplies_prefix.subset

theorem interTokenLatency_of_usable (h : r.isUsable) :
    r.interTokenLatency = if _ : 2 ≤ r.tokenReplies.length then
      some (Float.ofInt (r.tokenReplies[r.tokenReplies.length - 1].receivedNs.toInt -
        r.tokenReplies[0].receivedNs.toInt) / Float.ofNat (r.tokenReplies.length - 1))
      else none := by
  have hnear := near_of_usable h r.tokenReplies_subset
  rw [interTokenLatency, if_pos h]
  by_cases htwo : 2 ≤ r.tokenReplies.length
  · obtain ⟨first, second, rest, hsplit⟩ := Reply.exists_of_two_le htwo
    have hfirst : r.tokenReplies[0] = first := List.getElem_of_eq hsplit _
    have hlast : r.tokenReplies[r.tokenReplies.length - 1].receivedNs =
        ((second :: rest).map Reply.receivedNs).getLastD second.receivedNs := by
      apply Option.some.inj
      rw [← Reply.receivedNs_last first, ← hsplit, List.getLast?_eq_getElem?,
        List.getElem?_eq_getElem, Option.map_some]
    have hlength : (rest.map Reply.receivedNs).length = rest.length := List.length_map _
    have hexact := hnear _ (List.getElem_mem (Nat.sub_one_lt_of_lt htwo)) _
      (List.getElem_mem (Nat.lt_of_succ_lt htwo))
    rw [hlast, hfirst] at hexact
    rw [dif_pos htwo, hlast, hfirst, ← hexact, hsplit]
    show some (_ / Float.ofNat ((rest.map Reply.receivedNs).length + 1)) = _
    rw [hlength]
    rfl
  · rw [dif_neg htwo]
    generalize r.tokenReplies = xs at htwo
    rcases xs with _ | ⟨first, _ | ⟨second, rest⟩⟩
    · rfl
    · rfl
    · exact absurd (Nat.le_add_left 2 rest.length) htwo

theorem absent_of_unusable (h : ¬ r.isUsable) : r.timeToFirst = none ∧ r.timeToSecond = none ∧
    r.timeToLast = none ∧ r.interTokenLatency = none ∧ ∀ i, r.tokenLatency i = none := by
  have hnone := arrivals?_of_unusable h
  refine ⟨?_, ?_, ?_, if_neg h, fun i => ?_⟩
  · rw [timeToFirst, hnone, Option.bind_none]
  · rw [timeToSecond, hnone, Option.bind_none]
  · rw [timeToLast, hnone, Option.bind_none]
  · rw [tokenLatency, hnone, Option.bind_none]

/-- The timings of a request are there only if it is usable, and are exact then, whatever its
moments are. -/
theorem timings_exact (r : Request) :
    (¬ r.isUsable → r.timeToFirst = none ∧ r.timeToSecond = none ∧ r.timeToLast = none ∧
      r.interTokenLatency = none ∧ ∀ i, r.tokenLatency i = none) ∧
    (r.isUsable → r.Timed) := by
  refine ⟨absent_of_unusable, fun h => ?_⟩
  have hpos := length_pos_of_usable h
  exact {
    exact := exact_of_usable h
    answered := hpos
    first := timeToFirst_of_usable h hpos
    second := timeToSecond_of_usable h
    last := timeToLast_of_usable h
    token_first := tokenLatency_zero h hpos
    token_next := tokenLatency_succ h
    token_beyond := tokenLatency_beyond h
    tokens := tokenReplies_cases r
    spacing := interTokenLatency_of_usable h }

/-- A request whose replies are as far apart as they can be, completed at the least of all times. -/
def widest : Request where
  payload := .null
  startNs := 1
  endNs := some (-9223372036854775808)
  firstByteNs := none
  status := none
  replies := [.text 2 "", .text 9223372036854775806 ""]
  failure := none
  delayed := false

theorem timings_exact_widest : widest.isUsable ∧
    widest.timeToSecond.map Int64.toInt = some 9223372036854775804 ∧
    widest.timeToLast.map Int64.toInt = none ∧
    (widest.tokenLatency 0).map Int64.toInt = none := by
  have husable : widest.isUsable := by decide
  have htimed := (timings_exact widest).2 husable
  exact ⟨husable, htimed.second, htimed.last, htimed.token_first⟩

end Request
end BenchMetrics
