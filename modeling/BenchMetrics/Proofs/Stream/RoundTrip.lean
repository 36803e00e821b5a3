import BenchMetrics.Proofs.Text.Trimming
import BenchMetrics.Stream.Reader

/-! Reading packets and writing them. A line that is not blank is read as a well-formed packet, and
a well-formed packet is read back from the line that it is written as; so what can be read is
exactly what is well-formed, and reading what was written changes nothing. -/
namespace BenchMetrics
open Text

namespace FieldName

theorem ofText_eq_other {s n : String} (h : ofText s = .other n) :
    n = s ∧ lowerAscii n ∉ ["data", "event", "id", "retry"] := by
  simp only [ofText] at h
  split at h
  · cases h
  split at h
  · cases h
  split at h
  · cases h
  split at h
  · cases h
  rename_i hdata hevent hid hretry
  have hn : n = s := (other.inj h).symm
  refine ⟨hn, ?_⟩
  rw [hn]
  simp only [List.mem_cons, List.not_mem_nil, or_false, not_or]
  exact ⟨hdata, hevent, hid, hretry⟩

theorem ofText_ne_comment (s : String) : ofText s ≠ .comment := by
  intro h
  simp only [ofText] at h
  split at h
  · cases h
  split at h
  · cases h
  split at h
  · cases h
  split at h <;> cases h

theorem ofText_of_unknown {n : String} (h : lowerAscii n ∉ ["data", "event", "id", "retry"]) :
    ofText n = .other n := by
  simp only [List.mem_cons, List.not_mem_nil, or_false, not_or] at h
  obtain ⟨hdata, hevent, hid, hretry⟩ := h
  simp only [ofText]
  rw [if_neg hdata, if_neg hevent, if_neg hid, if_neg hretry]

end FieldName

namespace Packet

/-- The space behind a colon is trimmed away. -/
theorem trim_space (cs : List Char) : trim (' ' :: cs) = trim cs := by
  have hspace : trim ([' '] ++ cs) = trim cs := trim_front rfl cs
  exact hspace

theorem tidy_trim {cs : List Char} (h : '\n' ∉ cs) : Tidy (String.ofList (trim cs)) := by
  rw [Tidy, String.toList_ofList]
  exact ⟨trim_trim cs, fun hmem => h (mem_of_mem_trim hmem)⟩

section
variable {line : List Char}

/-- A line without a colon is a name. -/
theorem ofLine_plain (h : ':' ∉ line) :
    ofLine line = ⟨.ofText (String.ofList (trim line)), none⟩ := by
  rw [ofLine]
  split
  · rename_i rest hstart
    have hsub : trimStart line ⊆ line := (List.dropWhile_sublist isBlank).subset
    exact absurd (hsub (hstart ▸ .head _)) h
  · rw [cutFirst_eq_none_iff.mpr h]

/-- The first colon parts name and value, and with nothing but blanks in front of it the line is a
comment. -/
theorem ofLine_parted {name value : List Char} (h : ':' ∉ name) :
    ofLine (name ++ ':' :: value) =
      ⟨if allBlank name then .comment else .ofText (String.ofList (trim name)),
        some (String.ofList (trim value))⟩ := by
  by_cases hblank : allBlank name
  · have hstart : trimStart (name ++ ':' :: value) = ':' :: value := trimStart_padded hblank _
    rw [if_pos hblank]
    simp only [ofLine, hstart]
  · have hcut : cutFirst ':' (name ++ ':' :: value) = some (name, value) :=
      cutFirst_eq_some_iff.mpr ⟨h, rfl⟩
    rw [if_neg hblank, ofLine]
    split
    · -- a visible name keeps a character of its own in front, and that is no colon
      rename_i rest hstart
      rw [trimStart_append hblank] at hstart
      rcases hname : trimStart name with _ | ⟨c, cs⟩
      · exact absurd (trimStart_eq_nil_iff.mp hname) hblank
      · rw [hname] at hstart
        have hsub : trimStart name ⊆ name := (List.dropWhile_sublist isBlank).subset
        exact absurd (hsub (hname ▸ (List.cons.inj hstart).1 ▸ .head _)) h
    · rw [hcut]

/-- A piece of a line without a colon that is read as a name of its own. -/
theorem other_of_piece {cs : List Char} {n : String} (hcs : ¬ allBlank cs) (hcolon : ':' ∉ cs)
    (hline : '\n' ∉ cs) (h : FieldName.ofText (String.ofList (trim cs)) = .other n) :
    n ≠ "" ∧ Tidy n ∧ ':' ∉ n.toList ∧ lowerAscii n ∉ ["data", "event", "id", "retry"] := by
  obtain ⟨hn, hunknown⟩ := FieldName.ofText_eq_other h
  have hlist : n.toList = trim cs := by rw [hn, String.toList_ofList]
  have htidy : Tidy n := by
    rw [hn]
    exact tidy_trim hline
  refine ⟨?_, htidy, ?_, hunknown⟩
  · intro hempty
    rw [hempty] at hlist
    exact hcs (trim_eq_nil_iff.mp hlist.symm)
  · rw [hlist]
    exact fun hmem => hcolon (mem_of_mem_trim hmem)

theorem wellFormed_ofLine (h : ¬ allBlank line) (hline : '\n' ∉ line) :
    (ofLine line).WellFormed := by
  by_cases hcolon : ':' ∈ line
  · obtain ⟨name, value, rfl, hname⟩ := List.eq_append_cons_of_mem hcolon
    rw [List.mem_append, not_or] at hline
    rw [ofLine_parted hname]
    refine ⟨?_, fun _ => rfl, ?_⟩
    · intro v hv
      cases hv
      exact tidy_trim fun hmem => hline.2 (.tail _ hmem)
    · intro n hn
      dsimp only at hn
      by_cases hblank : allBlank name
      · rw [if_pos hblank] at hn
        cases hn
      · rw [if_neg hblank] at hn
        exact other_of_piece hblank hname hline.1 hn
  · rw [ofLine_plain hcolon]
    refine ⟨?_, ?_, ?_⟩
    · intro v hv
      cases hv
    · intro hcomment
      dsimp only at hcomment
      exact absurd hcomment (FieldName.ofText_ne_comment _)
    · intro n hn
      dsimp only at hn
      exact other_of_piece h hcolon hline hn

end

theorem wellFormed_ofText {raw : String} {p : Packet} (h : p ∈ ofText raw) : p.WellFormed := by
  obtain ⟨line, hmem, rfl⟩ := List.mem_map.mp h
  obtain ⟨hpiece, hblank⟩ := List.mem_filter.mp hmem
  apply wellFormed_ofLine _ (not_mem_of_mem_pieces hpiece)
  rw [Bool.not_eq_true'] at hblank
  rw [hblank]
  exact Bool.false_ne_true

theorem line_alone (name : FieldName) : line ⟨name, none⟩ = name.text.toList := by
  cases name <;> rfl

theorem line_valued {name : FieldName} (h : name ≠ .comment) (v : String) :
    line ⟨name, some v⟩ = name.text.toList ++ ':' :: ' ' :: v.toList := by
  cases name with
  | comment => exact absurd rfl h
  | data | event | id | retry | other => rfl

/-- How a name stands in a line: it is read as itself, and ends where it seems to. -/
structure Plain (name : FieldName) : Prop where
  trimmed : trim name.text.toList = name.text.toList
  visible : name.text.toList ≠ []
  colon : ':' ∉ name.text.toList
  newline : '\n' ∉ name.text.toList
  read : FieldName.ofText name.text = name

theorem WellFormed.plain {p : Packet} (h : p.WellFormed) (hname : p.name ≠ .comment) :
    Plain p.name := by
  cases hn : p.name with
  | comment => exact absurd hn hname
  | data | event | id | retry => exact ⟨by decide, by decide, by decide, by decide, by decide⟩
  | other n =>
    obtain ⟨hne, ⟨htrim, hnewline⟩, hcolon, hunknown⟩ := h.other_name n hn
    refine ⟨htrim, ?_, hcolon, hnewline, FieldName.ofText_of_unknown hunknown⟩
    intro hnil
    exact hne (String.toList_eq_nil_iff.mp hnil)

section
variable {name : FieldName}

theorem Plain.not_blank (h : Plain name) (rest : List Char) :
    ¬ allBlank (name.text.toList ++ rest) := by
  intro hblank
  rw [allBlank, List.all_append, Bool.and_eq_true] at hblank
  have hnil := trim_eq_nil_iff.mpr hblank.1
  rw [h.trimmed] at hnil
  exact h.visible hnil

theorem Plain.ofLine_alone (h : Plain name) : ofLine name.text.toList = ⟨name, none⟩ := by
  rw [ofLine_plain h.colon, h.trimmed, String.ofList_toList, h.read]

theorem Plain.ofLine_valued (h : Plain name) {v : String} (hv : trim v.toList = v.toList) :
    ofLine (name.text.toList ++ ':' :: ' ' :: v.toList) = ⟨name, some v⟩ := by
  have hvisible : ¬ allBlank name.text.toList := by
    rw [← List.append_nil name.text.toList]
    exact h.not_blank []
  rw [ofLine_parted h.colon, if_neg hvisible, h.trimmed, trim_space, hv, String.ofList_toList,
    String.ofList_toList, h.read]

end

/-- A well-formed packet is read back from its line. -/
theorem WellFormed.ofLine_line {p : Packet} (h : p.WellFormed) : ofLine p.line = p := by
  obtain ⟨name, value⟩ := p
  by_cases hname : name = .comment
  · subst hname
    cases value with
    | none => cases h.comment_value rfl
    | some v =>
      have hv : trim v.toList = v.toList := (h.value_tidy v rfl).1
      -- nothing stands in front of the colon
      have hread : ofLine ([] ++ ':' :: ' ' :: v.toList) =
          ⟨.comment, some (String.ofList (trim (' ' :: v.toList)))⟩ := ofLine_parted List.not_mem_nil
      rwa [trim_space, hv, String.ofList_toList] at hread
  · have hplain : Plain name := h.plain hname
    cases value with
    | none => rw [line_alone, hplain.ofLine_alone]
    | some v =>
      rw [line_valued hname]
      exact hplain.ofLine_valued (h.value_tidy v rfl).1

theorem WellFormed.line_visible {p : Packet} (h : p.WellFormed) :
    ¬ allBlank p.line ∧ '\n' ∉ p.line := by
  obtain ⟨name, value⟩ := p
  by_cases hname : name = .comment
  · subst hname
    cases value with
    | none => cases h.comment_value rfl
    | some v =>
      refine ⟨fun hblank => ?_, ?_⟩
      · cases hblank
      · have hv : '\n' ∉ v.toList := (h.value_tidy v rfl).2
        simpa [line] using hv
  · have hplain : Plain name := h.plain hname
    cases value with
    | none =>
      rw [line_alone, ← List.append_nil name.text.toList]
      exact ⟨hplain.not_blank [], by simpa using hplain.newline⟩
    | some v =>
      have hv : '\n' ∉ v.toList := (h.value_tidy v rfl).2
      rw [line_valued hname]
      exact ⟨hplain.not_blank _, by simpa using ⟨hplain.newline, hv⟩⟩

/-- Well-formed packets are read back from the text that they are written as. -/
theorem ofText_render {ps : List Packet} (h : ∀ p ∈ ps, p.WellFormed) : ofText (render ps) = ps := by
  by_cases hps : ps = []
  · -- without packets the text is empty, and its one line is blank
    rw [hps]
    rfl
  have hlines : ∀ l ∈ ps.map line, ¬ allBlank l ∧ '\n' ∉ l := by
    intro l hl
    obtain ⟨p, hp, rfl⟩ := List.mem_map.mp hl
    exact (h p hp).line_visible
  have hpieces : pieces '\n' (render ps).toList = ps.map line := by
    rw [pieces_eq_splitOn, render, String.toList_ofList]
    apply List.splitOn_intercalate
    · exact fun l hl => (hlines l hl).2
    · simpa using hps
  have hkept : (ps.map line).filter (!allBlank ·) = ps.map line := by
    apply List.filter_eq_self.mpr
    intro l hl
    simpa using (hlines l hl).1
  have hread : ∀ p ∈ ps, ofLine p.line = p := fun p hp => (h p hp).ofLine_line
  calc ofText (render ps) = (ps.map line).map ofLine := by rw [ofText, hpieces, hkept]
    _ = ps.map fun p => ofLine p.line := List.map_map
    _ = ps.map id := List.map_congr_left hread
    _ = ps := List.map_id ps

end Packet

/-- Reading and writing packets. Whatever a text says, it is read as packets that are well-formed;
packets are well-formed exactly if they are read back from the text that they are written as, and
exactly if there is a text that they are read from. So reading what was written after reading a
text is reading the text. -/
theorem Chunk.ofText_render_iff (receivedNs : Int64) :
    (∀ raw, ∀ p ∈ (Chunk.ofText raw receivedNs).packets, p.WellFormed) ∧
    (∀ ps, (Chunk.ofText (Packet.render ps) receivedNs).packets = ps ↔ ∀ p ∈ ps, p.WellFormed) ∧
    (∀ ps, (∃ raw, (Chunk.ofText raw receivedNs).packets = ps) ↔ ∀ p ∈ ps, p.WellFormed) ∧
    ∀ raw, Chunk.ofText (Packet.render (Chunk.ofText raw receivedNs).packets) receivedNs =
      Chunk.ofText raw receivedNs := by
  have hread : ∀ raw, ∀ p ∈ Packet.ofText raw, p.WellFormed :=
    fun raw p hp => Packet.wellFormed_ofText hp
  refine ⟨hread, ?_, ?_, ?_⟩
  · intro ps
    refine ⟨fun heq => ?_, Packet.ofText_render⟩
    rw [← heq]
    exact hread (Packet.render ps)
  · intro ps
    refine ⟨?_, fun h => ⟨Packet.render ps, Packet.ofText_render h⟩⟩
    rintro ⟨raw, rfl⟩
    exact hread raw
  · intro raw
    exact congrArg (Chunk.mk receivedNs) (Packet.ofText_render (hread raw))

end BenchMetrics
