import BenchMetrics.Proofs.Stream.Joining
import BenchMetrics.Proofs.Stream.RoundTrip
import Mathlib.Data.List.Forall2

/-! White space that makes no difference to what is read: at both ends of a line and around its
first colon. A carriage return in front of each newline is white space at the end of a line. -/
namespace BenchMetrics

namespace Text

/-- White space is put in at the ends of a line or on either side of its first colon, time and
again. -/
inductive Padded (line : List Char) : List Char → Prop where
  | same : Padded line line
  | ends {cs front back : List Char} (h : Padded line cs) (hfront : allBlank front)
    (hback : allBlank back) : Padded line (front ++ cs ++ back)
  | colon {name value front back : List Char} (h : Padded line (name ++ ':' :: value))
    (hfirst : ':' ∉ name) (hfront : allBlank front) (hback : allBlank back) :
    Padded line (name ++ front ++ ':' :: (back ++ value))

/-- The text with a carriage return put in front of each newline. -/
def crlf (raw : String) : String :=
  String.ofList (raw.toList.flatMap fun c => if c = '\n' then ['\r', '\n'] else [c])

theorem colon_not_mem {cs : List Char} (h : allBlank cs) : ':' ∉ cs := by
  intro hmem
  have hcolon : isBlank ':' := allBlank_iff.mp h _ hmem
  cases hcolon

theorem allBlank_parted (name value : List Char) : allBlank (name ++ ':' :: value) = false := by
  rw [allBlank_append, show allBlank (':' :: value) = false from rfl, Bool.and_false]

/-- Each line gets a carriage return at its end or stays as it is. -/
theorem lines_crlf (raw : String) :
    List.Forall₂ (fun line cs => cs = line ∨ cs = line ++ ['\r']) (lines raw)
      (lines (crlf raw)) := by
  rw [lines, lines, crlf, String.toList_ofList]
  induction raw.toList with
  | nil => exact .cons (.inl rfl) .nil
  | cons c cs ih =>
    rw [List.flatMap_cons]
    by_cases hc : c = '\n'
    · -- the line in front of the newline is empty here and gets all of its characters later
      subst hc
      rw [if_pos rfl]
      exact .cons (.inr rfl) ih
    · rw [if_neg hc, List.singleton_append, List.splitOn_cons_eq_if_modifyHead,
        List.splitOn_cons_eq_if_modifyHead, if_neg (by simpa using hc), if_neg (by simpa using hc)]
      generalize cs.splitOn '\n' = xs, List.splitOn '\n' (cs.flatMap _) = ys at ih
      cases ih with
      | nil => exact .nil
      | cons hline hrest =>
        refine .cons ?_ hrest
        rcases hline with rfl | rfl
        · exact .inl rfl
        · exact .inr rfl

theorem padded_crlf (raw : String) : List.Forall₂ Padded (lines raw) (lines (crlf raw)) := by
  apply (lines_crlf raw).imp
  rintro line cs (rfl | rfl)
  · exact .same
  · exact .ends .same (rfl : allBlank [] = true) rfl

end Text

namespace Packet
open Text
variable {line cs front back name value : List Char}

theorem ofLine_ends (hfront : allBlank front) (hback : allBlank back) (line : List Char) :
    ofLine (front ++ line ++ back) = ofLine line := by
  by_cases hcolon : ':' ∈ line
  · obtain ⟨name, value, rfl, hfirst⟩ := List.eq_append_cons_of_mem hcolon
    have hname : ':' ∉ front ++ name := by
      rw [List.mem_append, not_or]
      exact ⟨colon_not_mem hfront, hfirst⟩
    have hsplit : front ++ (name ++ ':' :: value) ++ back =
        front ++ name ++ ':' :: (value ++ back) := by
      simp only [List.append_assoc, List.cons_append]
    rw [hsplit, ofLine_parted hname, ofLine_parted hfirst, trim_front hfront, trim_back hback,
      allBlank_append, hfront, Bool.true_and]
  · have hnone : ':' ∉ front ++ line ++ back := by
      rw [List.mem_append, List.mem_append, not_or, not_or]
      exact ⟨⟨colon_not_mem hfront, hcolon⟩, colon_not_mem hback⟩
    rw [ofLine_plain hnone, ofLine_plain hcolon, trim_padded hfront hback]

theorem ofLine_colon (hfirst : ':' ∉ name) (hfront : allBlank front) (hback : allBlank back) :
    ofLine (name ++ front ++ ':' :: (back ++ value)) = ofLine (name ++ ':' :: value) := by
  have hname : ':' ∉ name ++ front := by
    rw [List.mem_append, not_or]
    exact ⟨hfirst, colon_not_mem hfront⟩
  rw [ofLine_parted hname, ofLine_parted hfirst, trim_back hfront, trim_front hback,
    allBlank_append, hfront, Bool.and_true]

/-- A padded line is blank if the line is, and is read as the line is. -/
theorem ofLine_padded (h : Padded line cs) :
    allBlank cs = allBlank line ∧ ofLine cs = ofLine line := by
  induction h with
  | same => exact ⟨rfl, rfl⟩
  | ends _ hfront hback ih =>
    rw [allBlank_padded hfront hback, ofLine_ends hfront hback]
    exact ih
  | colon _ hfirst hfront hback ih =>
    -- a line with a colon is not blank, however it is padded
    rw [allBlank_parted, ← ih.1, allBlank_parted, ofLine_colon hfirst hfront hback]
    exact ⟨rfl, ih.2⟩

theorem map_ofLine_padded {xs ys : List (List Char)} (h : List.Forall₂ Padded xs ys) :
    (visible ys).map ofLine = (visible xs).map ofLine := by
  induction h with
  | nil => rfl
  | @cons line cs xs ys hline _ ih =>
    obtain ⟨hblank, hread⟩ := ofLine_padded hline
    rw [visible, visible] at ih ⊢
    by_cases hline : allBlank line
    · rw [List.filter_cons_of_neg (by simpa [hblank] using hline),
        List.filter_cons_of_neg (by simpa using hline), ih]
    · rw [List.filter_cons_of_pos (by simpa [hblank] using hline),
        List.filter_cons_of_pos (by simpa using hline), List.map_cons, List.map_cons, hread, ih]

theorem ofText_padded {raw padded : String}
    (h : List.Forall₂ Padded (lines raw) (lines padded)) : ofText padded = ofText raw := by
  rw [ofText_eq, ofText_eq, map_ofLine_padded h]

end Packet

namespace Chunk

/-- A text is read alike with its lines padded in any way, and so it ends its stream alike; in
particular with a carriage return in front of each newline. -/
theorem ofText_indifferent (receivedNs : Int64) :
    (∀ raw padded, List.Forall₂ Text.Padded (Text.lines raw) (Text.lines padded) →
      ofText padded receivedNs = ofText raw receivedNs ∧
      (ofText padded receivedNs).endsStream = (ofText raw receivedNs).endsStream) ∧
    ∀ raw, List.Forall₂ Text.Padded (Text.lines raw) (Text.lines (Text.crlf raw)) ∧
      ofText (Text.crlf raw) receivedNs = ofText raw receivedNs := by
  have hread : ∀ raw padded, List.Forall₂ Text.Padded (Text.lines raw) (Text.lines padded) →
      ofText padded receivedNs = ofText raw receivedNs := by
    intro raw padded h
    rw [ofText, Packet.ofText_padded h, ofText]
  refine ⟨fun raw padded h => ?_, fun raw => ?_⟩
  · have hsame := hread raw padded h
    exact ⟨hsame, congrArg endsStream hsame⟩
  · have hpadded := Text.padded_crlf raw
    exact ⟨hpadded, hread raw (Text.crlf raw) hpadded⟩

/-- A name, a blank line, a comment and the end of the stream, each padded in its own way. -/
theorem ofText_indifferent_tabbed :
    List.Forall₂ Text.Padded (Text.lines "event\n\n:x\ndata:[DONE]")
      (Text.lines "\tevent\n \r\n :\u00a0x\r\ndata\t: [DONE] ") ∧
    ofText "\tevent\n \r\n :\u00a0x\r\ndata\t: [DONE] " 7 =
      ofText "event\n\n:x\ndata:[DONE]" 7 ∧
    (ofText "\tevent\n \r\n :\u00a0x\r\ndata\t: [DONE] " 7).endsStream ∧
    ofText "event\r\n\r\n:x\r\ndata:[DONE]" 7 = ofText "event\n\n:x\ndata:[DONE]" 7 := by
  have hevent : Text.Padded "event".toList (['\t'] ++ "event".toList ++ []) :=
    .ends .same rfl rfl
  have hblank : Text.Padded [] ([' '] ++ [] ++ ['\r']) := .ends .same rfl rfl
  have hcomment : Text.Padded ":x".toList ([' '] ++ ":x".toList ++ ['\r']) := .ends .same rfl rfl
  have hspaced : Text.Padded ":x".toList ([' '] ++ [] ++ ':' :: (['\u00a0'] ++ ['x', '\r'])) :=
    .colon hcomment (by decide) rfl rfl
  have hdone : Text.Padded "data:[DONE]".toList
      ("data".toList ++ ['\t'] ++ ':' :: ([' '] ++ "[DONE]".toList)) :=
    .colon .same (by decide) rfl rfl
  have hended : Text.Padded "data:[DONE]".toList ([] ++ "data\t: [DONE]".toList ++ [' ']) :=
    .ends hdone rfl rfl
  have hlines : List.Forall₂ Text.Padded (Text.lines "event\n\n:x\ndata:[DONE]")
      (Text.lines "\tevent\n \r\n :\u00a0x\r\ndata\t: [DONE] ") :=
    .cons hevent (.cons hblank (.cons hspaced (.cons hended .nil)))
  obtain ⟨hpadded, hcrlf⟩ := ofText_indifferent 7
  obtain ⟨hsame, hends⟩ := hpadded _ _ hlines
  have hreturns : Text.crlf "event\n\n:x\ndata:[DONE]" = "event\r\n\r\n:x\r\ndata:[DONE]" := by
    decide
  refine ⟨hlines, hsame, ?_, ?_⟩
  · rw [hends]
    decide
  · rw [← hreturns]
    exact (hcrlf _).2

end Chunk
end BenchMetrics
