import BenchMetrics.Proofs.Request.Timing
import BenchMetrics.Proofs.Stream.Joining
import BenchMetrics.Proofs.Stream.RoundTrip

/-! The end of a stream. A chunk ends its stream exactly if the done marker is the value of its last
line that is not blank. Such a chunk leaves the mean distance of the replies as it was, whenever it
arrives; any other reply counts. -/
namespace BenchMetrics

namespace Text

/-- The done marker stands behind the first colon of the line, whatever the name in front of it, with
nothing but white space around it. -/
def SaysDone (line : List Char) : Prop :=
  ∃ name value, ':' ∉ name ∧ line = name ++ ':' :: value ∧ trim value = doneMarker.toList

/-- The last line that is not blank says that the stream is done; earlier ones do not count. -/
def EndsDone (raw : String) : Prop := ∃ line ∈ (visible (lines raw)).getLast?, SaysDone line

end Text

theorem Packet.isDone_ofLine_iff {line : List Char} :
    (ofLine line).isDone ↔ Text.SaysDone line := by
  constructor
  · intro h
    by_cases hcolon : ':' ∈ line
    · obtain ⟨name, value, rfl, hname⟩ := List.eq_append_cons_of_mem hcolon
      rw [ofLine_parted hname, isDone, beq_iff_eq, Option.some.injEq] at h
      exact ⟨name, value, hname, rfl, by rw [← h, String.toList_ofList]⟩
    · rw [ofLine_plain hcolon] at h
      cases h
  · rintro ⟨name, value, hname, rfl, hvalue⟩
    rw [ofLine_parted hname, isDone, beq_iff_eq, hvalue, String.ofList_toList]

theorem Chunk.endsStream_ofText_iff {raw : String} {receivedNs : Int64} :
    (ofText raw receivedNs).endsStream ↔ Text.EndsDone raw := by
  have hlast : (ofText raw receivedNs).packets.getLast? =
      (Text.visible (Text.lines raw)).getLast?.map Packet.ofLine := by
    rw [ofText, Packet.ofText_eq, List.getLast?_map]
  rw [endsStream, hlast, Text.EndsDone]
  cases (Text.visible (Text.lines raw)).getLast? with
  | none => simp
  | some line =>
    rw [Option.map_some, Option.any_some, Packet.isDone_ofLine_iff]
    simp

/-- The distance from the first reply to the last, divided among the replies after the first. -/
def Reply.spacing (xs : List Reply) : Option Float :=
  xs.head?.bind fun first => xs.getLast?.map fun last =>
    Float.ofInt (last.receivedNs.toInt - first.receivedNs.toInt) / Float.ofNat (xs.length - 1)

theorem Reply.spacing_eq {xs : List Reply} (h : 0 < xs.length) : spacing xs =
    some (Float.ofInt (xs[xs.length - 1].receivedNs.toInt - xs[0].receivedNs.toInt) /
      Float.ofNat (xs.length - 1)) := by
  rw [spacing, List.head?_eq_getElem?, List.getLast?_eq_getElem?, List.getElem?_eq_getElem h,
    List.getElem?_eq_getElem (Nat.sub_one_lt_of_lt h)]
  rfl

namespace Request
variable {r : Request} {reply : Reply}

theorem interTokenLatency_eq_spacing (h : r.isUsable) : r.interTokenLatency =
    if 2 ≤ r.tokenReplies.length then Reply.spacing r.tokenReplies else none := by
  rw [interTokenLatency_of_usable h]
  by_cases htwo : 2 ≤ r.tokenReplies.length
  · rw [dif_pos htwo, if_pos htwo, Reply.spacing_eq (Nat.lt_of_succ_lt htwo)]
  · rw [dif_neg htwo, if_neg htwo]

theorem tokenReplies_receive (r : Request) (reply : Reply) : (r.receive reply).tokenReplies =
    if reply.endsStream then r.replies else r.replies ++ [reply] := by
  rw [tokenReplies, receive, List.getLast?_concat, Option.any_some, List.dropLast_concat]

theorem tokenReplies_eq_replies (h : ∀ final ∈ r.replies.getLast?, ¬ final.endsStream) :
    r.tokenReplies = r.replies := by
  rcases r.tokenReplies_cases with ⟨final, hsplit, hends⟩ | ⟨hall, _⟩
  · have hlast : final ∈ r.replies.getLast? := by
      rw [hsplit, List.getLast?_concat, Option.mem_some_iff]
    exact absurd hends (h final hlast)
  · exact hall

theorem interTokenLatency_of_nil (h : r.tokenReplies = []) : r.interTokenLatency = none := by
  by_cases husable : r.isUsable
  · rw [interTokenLatency_eq_spacing husable, h]
    rfl
  · exact if_neg husable

/-- With a reply there already, one more in range does not make the request usable or unusable. -/
theorem isUsable_receive (h : r.replies ≠ []) (hrange : inOpenRange reply.receivedNs) :
    (r.receive reply).isUsable = r.isUsable := by
  have hbefore : r.replies.isEmpty = false := List.isEmpty_eq_false_iff.mpr h
  have hafter : (r.replies ++ [reply]).isEmpty = false :=
    List.isEmpty_eq_false_iff.mpr (List.concat_ne_nil _ _)
  have hall : (r.replies ++ [reply]).all (fun reply => inOpenRange reply.receivedNs) =
      r.replies.all fun reply => inOpenRange reply.receivedNs := by
    rw [List.all_append, List.all_cons, hrange, List.all_nil, Bool.true_and, Bool.and_true]
  rw [isUsable, isUsable, receive, hafter, hall, hbefore]

theorem interTokenLatency_receive_done (hlast : ∀ final ∈ r.replies.getLast?, ¬ final.endsStream)
    (hrange : inOpenRange reply.receivedNs) (hends : reply.endsStream) :
    (r.receive reply).interTokenLatency = r.interTokenLatency := by
  have hbefore : r.tokenReplies = r.replies := tokenReplies_eq_replies hlast
  have hafter : (r.receive reply).tokenReplies = r.replies := by
    rw [tokenReplies_receive, if_pos hends]
  by_cases hsome : r.replies = []
  · -- the first reply may make the request usable, but leaves nothing to measure
    rw [hsome] at hbefore hafter
    rw [interTokenLatency_of_nil hbefore, interTokenLatency_of_nil hafter]
  · have hsame := isUsable_receive hsome hrange
    by_cases husable : r.isUsable
    · rw [interTokenLatency_eq_spacing (hsame.trans husable), interTokenLatency_eq_spacing husable,
        hafter, hbefore]
    · have hunusable : ¬ (r.receive reply).isUsable := by rwa [hsame]
      rw [interTokenLatency, interTokenLatency, if_neg husable, if_neg hunusable]

theorem interTokenLatency_receive (hends : ¬ reply.endsStream)
    (husable : (r.receive reply).isUsable) (htwo : 2 ≤ (r.receive reply).replies.length) :
    (r.receive reply).interTokenLatency = Reply.spacing (r.receive reply).replies := by
  have hall : (r.receive reply).tokenReplies = (r.receive reply).replies := by
    rw [tokenReplies_receive, if_neg hends, receive]
  rw [interTokenLatency_eq_spacing husable, hall, if_pos htwo]

/-- A body, or a chunk whose last visible line does not say that the stream is done. -/
inductive Carries : Reply → Prop where
  | text (receivedNs : Int64) (body : String) : Carries (.text receivedNs body)
  | stream {raw : String} (h : ¬ Text.EndsDone raw) (receivedNs : Int64) :
    Carries (.stream (.ofText raw receivedNs))

/-- A chunk that says at its end that the stream is done leaves the mean distance of the replies as it
was, whether there is one or not and whenever the chunk arrives. After a body or any other chunk, the
mean distance is that of all replies. -/
theorem interTokenLatency_pushed (r : Request) :
    (∀ raw receivedNs, (∀ final ∈ r.replies.getLast?, ¬ final.endsStream) →
      0 < receivedNs ∧ receivedNs < Int64.maxValue → Text.EndsDone raw →
      (r.receive (.stream (.ofText raw receivedNs))).interTokenLatency = r.interTokenLatency) ∧
    ∀ reply, Carries reply → (r.receive reply).isUsable →
      2 ≤ (r.receive reply).replies.length →
      (r.receive reply).interTokenLatency = Reply.spacing (r.receive reply).replies := by
  constructor
  · intro raw receivedNs hlast hrange hdone
    exact interTokenLatency_receive_done hlast (inOpenRange_iff_lt.mpr hrange)
      (Chunk.endsStream_ofText_iff.mpr hdone)
  · intro reply hcarries husable htwo
    have hends : ¬ reply.endsStream := by
      cases hcarries with
      | text => exact Bool.false_ne_true
      | stream h => exact fun hends => h (Chunk.endsStream_ofText_iff.mp hends)
    exact interTokenLatency_receive hends husable htwo

/-- Two replies and the end of the stream, said by a comment behind which a blank line stands, long
before both of them; then a chunk that says it too early. -/
theorem interTokenLatency_pushed_comment :
    (((start .null 1).run [.receive (.text 10 "a"), .receive (.text 40 "b")]).receive
      (.stream (.ofText "data: c\n : [DONE] \r\n\n" 2))).interTokenLatency =
      ((start .null 1).run [.receive (.text 10 "a"), .receive (.text 40 "b")]).interTokenLatency ∧
    (((start .null 1).run [.receive (.text 10 "a"), .receive (.text 40 "b")]).receive
      (.stream (.ofText "data: [DONE]\ndata: c" 100))).interTokenLatency =
      some (Float.ofInt 90 / Float.ofNat 2) := by
  obtain ⟨hdone, hcarries⟩ :=
    interTokenLatency_pushed ((start .null 1).run [.receive (.text 10 "a"), .receive (.text 40 "b")])
  have hsays : Text.EndsDone "data: c\n : [DONE] \r\n\n" :=
    ⟨" : [DONE] \r".toList, rfl, [' '], " [DONE] \r".toList, by decide, rfl, by decide⟩
  have hnot : ¬ Text.EndsDone "data: [DONE]\ndata: c" := by
    have hends : ¬ (Chunk.ofText "data: [DONE]\ndata: c" 100).endsStream := by decide
    rwa [Chunk.endsStream_ofText_iff] at hends
  refine ⟨hdone _ 2 (by decide) (by decide) hsays, ?_⟩
  exact hcarries _ (.stream hnot 100) (by decide) (by decide)

end Request
end BenchMetrics
