import BenchMetrics.Proofs.Text.Trimming
import BenchMetrics.Stream.Reader

/-! Texts joined at a newline. Reading goes line by line and carries nothing from one line to the
next, so that what is read from a joined text is what is read from its parts, one after the other,
and a blank line leaves no trace wherever it stands. -/
namespace BenchMetrics

namespace Text

/-- The lines of a text, which newlines part. -/
def lines (raw : String) : List (List Char) := raw.toList.splitOn '\n'

/-- Lines before and after blank lines are put between them, in front of them or behind them. -/
inductive Spaced : List (List Char) → List (List Char) → Prop where
  | nil : Spaced [] []
  | line (l : List Char) {xs ys : List (List Char)} (h : Spaced xs ys) : Spaced (l :: xs) (l :: ys)
  | blank {l : List Char} (hl : allBlank l) {xs ys : List (List Char)} (h : Spaced xs ys) :
    Spaced xs (l :: ys)

/-- The lines that are not blank. -/
def visible (xs : List (List Char)) : List (List Char) := xs.filter (!allBlank ·)

theorem lines_joined (a b : String) : lines (a ++ "\n" ++ b) = lines a ++ lines b := by
  have hlist : (a ++ "\n" ++ b).toList = a.toList ++ '\n' :: b.toList := by
    rw [String.toList_append, String.toList_append, List.append_assoc]
    rfl
  rw [lines, hlist]
  exact List.splitOn_append_cons_self a.toList b.toList

theorem Spaced.visible_eq {xs ys : List (List Char)} (h : Spaced xs ys) :
    visible ys = visible xs := by
  induction h with
  | nil => rfl
  | line l _ ih =>
    rw [visible, List.filter_cons, ← visible, ih, visible, visible, List.filter_cons]
  | blank hl _ ih =>
    rw [← ih, visible, List.filter_cons_of_neg (by simpa using hl), visible]

theorem visible_eq_nil_iff {xs : List (List Char)} : visible xs = [] ↔ xs.all allBlank := by
  rw [visible, List.filter_eq_nil_iff, List.all_eq_true]
  apply forall₂_congr
  intro l _
  rw [Bool.not_eq_true', Bool.not_eq_false]

end Text

namespace Packet

theorem ofText_eq (raw : String) : ofText raw = (Text.visible (Text.lines raw)).map ofLine := by
  rw [ofText, Text.pieces_eq_splitOn]
  rfl

theorem ofText_joined (a b : String) : ofText (a ++ "\n" ++ b) = ofText a ++ ofText b := by
  simp only [ofText_eq, Text.lines_joined, Text.visible, List.filter_append, List.map_append]

theorem length_ofText (raw : String) :
    (ofText raw).length = (Text.lines raw).countP (!Text.allBlank ·) := by
  rw [ofText_eq, List.length_map, Text.visible, List.countP_eq_length_filter]

theorem ofText_eq_nil_iff {raw : String} : ofText raw = [] ↔ (Text.lines raw).all Text.allBlank := by
  rw [ofText_eq, List.map_eq_nil_iff, Text.visible_eq_nil_iff]

end Packet

namespace Chunk

variable {c : Chunk} {ps qs : List Packet}

theorem data_joined (h : c.packets = ps ++ qs) : c.data =
    data ⟨c.receivedNs, ps⟩ ++ data ⟨c.receivedNs, qs⟩ := by
  rw [data, h, List.filter_append, List.filterMap_append]
  rfl

/-- The last packet of all decides, wherever it comes from. -/
theorem endsStream_joined (h : c.packets = ps ++ qs) : c.endsStream =
    if qs = [] then endsStream ⟨c.receivedNs, ps⟩ else endsStream ⟨c.receivedNs, qs⟩ := by
  rw [endsStream, h]
  by_cases hqs : qs = []
  · rw [if_pos hqs, hqs, List.append_nil]
    rfl
  · rw [if_neg hqs, List.getLast?_append_of_ne_nil _ hqs]
    rfl

/-- What is read from a text is read line by line, a packet from each line that is not blank: from
texts that are joined at a newline as from each of them, and alike with blank lines put in anywhere.
Whether a joined text ends its stream is up to the second part, and to the first if that is
blank. -/
theorem ofText_by_lines (receivedNs : Int64) :
    (∀ a b, (ofText (a ++ "\n" ++ b) receivedNs).packets =
      (ofText a receivedNs).packets ++ (ofText b receivedNs).packets) ∧
    (∀ raw, (ofText raw receivedNs).packets.length =
      (Text.lines raw).countP (!Text.allBlank ·)) ∧
    (∀ raw spaced, Text.Spaced (Text.lines raw) (Text.lines spaced) →
      ofText spaced receivedNs = ofText raw receivedNs) ∧
    (∀ a b, (ofText (a ++ "\n" ++ b) receivedNs).data =
      (ofText a receivedNs).data ++ (ofText b receivedNs).data) ∧
    ∀ a b, (ofText (a ++ "\n" ++ b) receivedNs).endsStream =
      if (Text.lines b).all Text.allBlank then (ofText a receivedNs).endsStream
      else (ofText b receivedNs).endsStream := by
  have hjoined : ∀ a b, (ofText (a ++ "\n" ++ b) receivedNs).packets =
      (ofText a receivedNs).packets ++ (ofText b receivedNs).packets := Packet.ofText_joined
  refine ⟨hjoined, Packet.length_ofText, ?_, fun a b => data_joined (hjoined a b), ?_⟩
  · intro raw spaced h
    have hvisible : Text.visible (Text.lines spaced) = Text.visible (Text.lines raw) := h.visible_eq
    have hpackets : Packet.ofText spaced = Packet.ofText raw := by
      rw [Packet.ofText_eq, hvisible, ← Packet.ofText_eq]
    rw [ofText, hpackets, ofText]
  · intro a b
    have hempty : (ofText b receivedNs).packets = [] ↔ (Text.lines b).all Text.allBlank :=
      Packet.ofText_eq_nil_iff
    rw [endsStream_joined (hjoined a b)]
    simp only [hempty]
    rfl

/-- Blank lines at both ends and in between, one of them behind the end of the stream. -/
theorem ofText_by_lines_spaced :
    Text.Spaced (Text.lines "data: a\n: [DONE]") (Text.lines "\ndata: a\n \t\n: [DONE]\n\r") ∧
    ofText "\ndata: a\n \t\n: [DONE]\n\r" 7 = ofText "data: a\n: [DONE]" 7 ∧
    (ofText "\ndata: a\n \t\n: [DONE]\n\r" 7).packets.length = 2 ∧
    (ofText ("data: a\n: [DONE]" ++ "\n" ++ " \n") 7).endsStream := by
  have hspaced : Text.Spaced (Text.lines "data: a\n: [DONE]")
      (Text.lines "\ndata: a\n \t\n: [DONE]\n\r") :=
    .blank rfl (.line _ (.blank rfl (.line _ (.blank rfl .nil))))
  obtain ⟨_, hlength, hsame, _, hends⟩ := ofText_by_lines 7
  refine ⟨hspaced, hsame _ _ hspaced, ?_, ?_⟩
  · rw [hlength]
    decide
  · rw [hends, if_pos (by decide)]
    decide

end Chunk
end BenchMetrics
