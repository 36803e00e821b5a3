import BenchMetrics.Proofs.Request.Agreement
import Mathlib

/-! Token latencies of a usable request. They lead from each reply to the next, so that their sum over
a stretch of replies is the distance of its ends, and the other timings are such sums. -/
namespace BenchMetrics.Request

/-- How long the reply at an index took, as a whole number; zero where that is not known. -/
def tokenNs (r : Request) (k : ℕ) : ℤ := ((r.tokenLatency k).map Int64.toInt).getD 0

/-- What the token latencies of a request sum up to. -/
structure Telescoping (r : Request) : Prop where
  known : ∀ k, 1 ≤ k → k < r.replies.length → (r.tokenLatency k).isSome
  between : ∀ i j, i ≤ j → ∀ earlier ∈ r.replies[i]?, ∀ later ∈ r.replies[j]?,
    ∑ k ∈ Finset.Ioc i j, r.tokenNs k = later.receivedNs.toInt - earlier.receivedNs.toInt
  dispatched : ∃ first, r.timeToFirst = some first ∧ ∀ last ∈ r.replies.getLast?,
    first.toInt + ∑ k ∈ Finset.Ico 1 r.replies.length, r.tokenNs k =
      last.receivedNs.toInt - r.startNs.toInt
  second : r.timeToSecond = r.tokenLatency 1
  /-- Of the replies only a last one that ends the stream carries no token. -/
  counted : r.tokenReplies.length =
    if r.replies.getLast?.any Reply.endsStream then r.replies.length - 1 else r.replies.length
  spacing : r.interTokenLatency = if 2 ≤ r.tokenReplies.length then
    some (Float.ofInt (∑ k ∈ Finset.Ico 1 r.tokenReplies.length, r.tokenNs k) /
      Float.ofNat (r.tokenReplies.length - 1)) else none
  begun : ∀ byte ∈ r.firstByteNs, (r.tokenLatency 0).isSome → ∀ last ∈ r.replies.getLast?,
    ∑ k ∈ Finset.range r.replies.length, r.tokenNs k =
      last.receivedNs.toInt - byte.toInt

variable {r : Request} {earlier later first : Reply} {i j m : ℕ}

theorem tokenNs_of_eq_some {x : Int64} (h : r.tokenLatency i = some x) :
    r.tokenNs i = x.toInt := by
  rw [tokenNs, h, Option.map_some, Option.getD_some]

theorem tokenNs_succ (h : r.isUsable) (hearlier : r.replies[i]? = some earlier)
    (hlater : r.replies[i + 1]? = some later) :
    r.tokenNs (i + 1) = later.receivedNs.toInt - earlier.receivedNs.toInt := by
  obtain ⟨hlt, rfl⟩ := List.getElem?_eq_some_iff.mp hlater
  obtain ⟨_, rfl⟩ := List.getElem?_eq_some_iff.mp hearlier
  rw [tokenNs, tokenLatency_succ h i hlt, Option.getD_some]

theorem isSome_tokenLatency_succ (h : r.isUsable) (hi : i + 1 < r.replies.length) :
    (r.tokenLatency (i + 1)).isSome := by
  have hlatency := congrArg Option.isSome (tokenLatency_succ h i hi)
  rwa [Option.isSome_map] at hlatency

theorem tokenNs_zero (h : r.isUsable) (hfirst : r.replies[0]? = some first) {byte : Int64}
    (hbyte : r.firstByteNs = some byte) (hsome : (r.tokenLatency 0).isSome) :
    r.tokenNs 0 = first.receivedNs.toInt - byte.toInt := by
  obtain ⟨x, hx⟩ := Option.isSome_iff_exists.mp hsome
  have hsub := hx
  rw [tokenLatency_of_usable h, hfirst, Option.bind_some, if_pos rfl, hbyte,
    Option.bind_some] at hsub
  rw [tokenNs_of_eq_some hx, checkedSub_eq_some_iff.mp hsub]

/-- The latencies of a stretch of replies lead from its first to its last. -/
theorem sum_tokenNs (h : r.isUsable) (hij : i ≤ j) (hearlier : r.replies[i]? = some earlier)
    (hlater : r.replies[j]? = some later) :
    ∑ k ∈ Finset.Ioc i j, r.tokenNs k = later.receivedNs.toInt - earlier.receivedNs.toInt := by
  induction j, hij using Nat.le_induction generalizing later with
  | base =>
    obtain rfl : earlier = later := Option.some.inj (hearlier.symm.trans hlater)
    rw [Finset.Ioc_self, Finset.sum_empty, sub_self]
  | succ j hij ih =>
    -- the stretch up to the reply before, and one latency more
    obtain ⟨hlt, _⟩ := List.getElem?_eq_some_iff.mp hlater
    obtain ⟨previous, hprevious⟩ : ∃ previous, r.replies[j]? = some previous :=
      ⟨_, List.getElem?_eq_getElem (Nat.lt_of_succ_lt hlt)⟩
    rw [Finset.sum_Ioc_succ_top hij, ih hprevious, tokenNs_succ h hprevious hlater]
    ring

theorem sum_tokenNs_front (h : r.isUsable) (hfirst : r.replies[0]? = some first)
    (hlater : r.replies[m - 1]? = some later) (hm : 0 < m) :
    ∑ k ∈ Finset.Ico 1 m, r.tokenNs k = later.receivedNs.toInt - first.receivedNs.toInt := by
  have hset : Finset.Ico 1 m = Finset.Ioc 0 (m - 1) := by
    ext k
    rw [Finset.mem_Ico, Finset.mem_Ioc]
    omega
  rw [hset, sum_tokenNs h (Nat.zero_le _) hfirst hlater]

theorem length_tokenReplies (r : Request) : r.tokenReplies.length =
    if r.replies.getLast?.any Reply.endsStream then r.replies.length - 1
    else r.replies.length := by
  rw [tokenReplies]
  split
  · exact List.length_dropLast
  · rfl

theorem spacing_of_usable (h : r.isUsable) : r.interTokenLatency =
    if 2 ≤ r.tokenReplies.length then
      some (Float.ofInt (∑ k ∈ Finset.Ico 1 r.tokenReplies.length, r.tokenNs k) /
        Float.ofNat (r.tokenReplies.length - 1)) else none := by
  rw [interTokenLatency_of_usable h]
  by_cases htwo : 2 ≤ r.tokenReplies.length
  · have hpos : 0 < r.tokenReplies.length := Nat.lt_of_succ_lt htwo
    have hat : ∀ k, ∀ hk : k < r.tokenReplies.length,
        r.replies[k]? = some r.tokenReplies[k] := by
      intro k hk
      obtain ⟨rest, hrest⟩ := r.tokenReplies_prefix
      rw [← hrest, List.getElem?_append_left hk, List.getElem?_eq_getElem hk]
    rw [dif_pos htwo, if_pos htwo,
      sum_tokenNs_front h (hat 0 hpos) (hat _ (Nat.sub_one_lt_of_lt hpos)) hpos]
  · rw [dif_neg htwo, if_neg htwo]

theorem timeToSecond_eq_tokenLatency (h : r.isUsable) : r.timeToSecond = r.tokenLatency 1 := by
  have htimed := timedBy_of_usable h
  rw [htimed.second, htimed.next 0, getElem?_gaps]

/-- The token latencies of a usable request lead from reply to reply. -/
theorem tokens_telescope (h : r.isUsable) : r.Telescoping := by
  have hpos := length_pos_of_usable h
  have hfirst : r.replies[0]? = some r.replies[0] := List.getElem?_eq_getElem hpos
  have hrest : ∀ last ∈ r.replies.getLast?, ∑ k ∈ Finset.Ico 1 r.replies.length, r.tokenNs k =
      last.receivedNs.toInt - r.replies[0].receivedNs.toInt := by
    intro last hlast
    rw [Option.mem_def, List.getLast?_eq_getElem?] at hlast
    exact sum_tokenNs_front h hfirst hlast hpos
  refine ⟨?_, ?_, ?_, timeToSecond_eq_tokenLatency h, r.length_tokenReplies, spacing_of_usable h,
    ?_⟩
  · intro k hk hlt
    obtain ⟨i, rfl⟩ := Nat.exists_eq_add_of_le' hk
    exact isSome_tokenLatency_succ h hlt
  · intro i j hij earlier hearlier later hlater
    exact sum_tokenNs h hij hearlier hlater
  · obtain ⟨first, hdispatched, hns⟩ := Option.map_eq_some_iff.mp (timeToFirst_of_usable h hpos)
    refine ⟨first, hdispatched, fun last hlast => ?_⟩
    rw [hns, hrest last hlast]
    ring
  · intro byte hbyte hsome last hlast
    rw [Finset.sum_range_eq_add_Ico _ hpos, hrest last hlast,
      tokenNs_zero h hfirst hbyte hsome]
    ring

/-- Three replies that carry tokens, the last two of them received in reverse, and the end of the
stream. -/
def reversed : Request := (start .null 1).run [.firstByte 4, .receive (.text 10 "a"),
  .receive (.text 30 "b"), .receive (.text 20 "c"), .receive (.stream (.ofText "data: [DONE]" 25))]

theorem tokens_telescope_reversed : reversed.isUsable ∧
    ∑ k ∈ Finset.Ioc 1 3, reversed.tokenNs k = -5 ∧
    ∑ k ∈ Finset.range 4, reversed.tokenNs k = 21 ∧
    reversed.interTokenLatency =
      some (Float.ofInt (∑ k ∈ Finset.Ico 1 3, reversed.tokenNs k) / Float.ofNat 2) := by
  have husable : reversed.isUsable := by decide
  have htelescoping := tokens_telescope husable
  have hcount : reversed.tokenReplies.length = 3 := by decide
  have hspacing := htelescoping.spacing
  rw [hcount, if_pos (by decide)] at hspacing
  refine ⟨husable, ?_, ?_, hspacing⟩
  · exact htelescoping.between 1 3 (by decide) _ rfl _ rfl
  · exact htelescoping.begun 4 rfl (by decide) _ rfl

end BenchMetrics.Request
