import BenchMetrics.Text.Blank
import Mathlib.Data.List.DropRight
import Mathlib.Data.List.Basic

/-! Trimming and cutting. A text is its trimmed form between two blank ends, and blank ends make
no difference to what is trimmed; a cut gives back what stands around the first separator. -/
namespace BenchMetrics.Text

section
variable {front back cs : List Char} {c : Char}

theorem allBlank_iff : allBlank cs ↔ ∀ c ∈ cs, isBlank c := List.all_eq_true

theorem trimStart_padded (hfront : allBlank front) (cs : List Char) :
    trimStart (front ++ cs) = trimStart cs :=
  List.dropWhile_append_of_pos (allBlank_iff.mp hfront)

theorem trimEnd_padded (hback : allBlank back) (cs : List Char) :
    trimEnd (cs ++ back) = trimEnd cs := by
  have hreverse : ∀ c ∈ back.reverse, isBlank c := by
    intro c hc
    exact allBlank_iff.mp hback c (List.mem_reverse.mp hc)
  rw [trimEnd, List.reverse_append, List.dropWhile_append_of_pos hreverse, trimEnd]

theorem trimStart_eq_nil_iff : trimStart cs = [] ↔ allBlank cs := by
  rw [trimStart, List.dropWhile_eq_nil_iff, allBlank_iff]

theorem trimStart_append (h : ¬ allBlank cs) (back : List Char) :
    trimStart (cs ++ back) = trimStart cs ++ back := by
  have hne : ¬ (List.dropWhile isBlank cs).isEmpty := by
    rw [List.isEmpty_iff]
    exact fun hnil => h (trimStart_eq_nil_iff.mp hnil)
  rw [trimStart, List.dropWhile_append, if_neg hne, trimStart]

/-- Blank ends make no difference. -/
theorem trim_padded (hfront : allBlank front) (hback : allBlank back) (cs : List Char) :
    trim (front ++ cs ++ back) = trim cs := by
  rw [trim, List.append_assoc, trimStart_padded hfront, trim]
  by_cases hcs : allBlank cs
  · -- of a blank text nothing is left, whatever blanks follow
    have hall : allBlank (cs ++ back) := by
      rw [allBlank, List.all_append, Bool.and_eq_true]
      exact ⟨hcs, hback⟩
    rw [trimStart_eq_nil_iff.mpr hall, trimStart_eq_nil_iff.mpr hcs]
  · rw [trimStart_append hcs, trimEnd_padded hback]

theorem trim_front (hfront : allBlank front) (cs : List Char) : trim (front ++ cs) = trim cs := by
  have hpadded : trim (front ++ cs ++ []) = trim cs := trim_padded hfront rfl cs
  rwa [List.append_nil] at hpadded

theorem trim_back (hback : allBlank back) (cs : List Char) : trim (cs ++ back) = trim cs := by
  have hpadded : trim ([] ++ cs ++ back) = trim cs := trim_padded rfl hback cs
  rwa [List.nil_append] at hpadded

theorem allBlank_append : allBlank (cs ++ back) = (allBlank cs && allBlank back) :=
  List.all_append

/-- Only blank characters are put in, so a text stays blank or stays visible. -/
theorem allBlank_padded (hfront : allBlank front) (hback : allBlank back) (cs : List Char) :
    allBlank (front ++ cs ++ back) = allBlank cs := by
  rw [allBlank_append, allBlank_append, hfront, hback, Bool.true_and, Bool.and_true]

/-- What is taken away is blank. -/
theorem exists_padding (cs : List Char) :
    ∃ front back, allBlank front ∧ allBlank back ∧ cs = front ++ trim cs ++ back := by
  have hstart : cs = cs.takeWhile isBlank ++ trimStart cs := List.takeWhile_append_dropWhile.symm
  have hend : trimStart cs = trim cs ++ (trimStart cs).rtakeWhile isBlank :=
    List.rdropWhile_append_rtakeWhile.symm
  refine ⟨cs.takeWhile isBlank, (trimStart cs).rtakeWhile isBlank, ?_, ?_, ?_⟩
  · exact allBlank_iff.mpr fun c hc => List.mem_takeWhile_imp hc
  · exact allBlank_iff.mpr fun c hc => List.mem_rtakeWhile_imp hc
  · rw [List.append_assoc, ← hend, ← hstart]

theorem trim_trim (cs : List Char) : trim (trim cs) = trim cs := by
  obtain ⟨front, back, hfront, hback, hcs⟩ := exists_padding cs
  calc trim (trim cs) = trim (front ++ trim cs ++ back) := (trim_padded hfront hback _).symm
    _ = trim cs := by rw [← hcs]

theorem mem_of_mem_trim (h : c ∈ trim cs) : c ∈ cs := by
  obtain ⟨front, back, _, _, hcs⟩ := exists_padding cs
  rw [hcs]
  exact List.mem_append_left _ (List.mem_append_right _ h)

theorem trim_eq_nil_iff : trim cs = [] ↔ allBlank cs := by
  constructor
  · intro hnil
    obtain ⟨front, back, hfront, hback, hcs⟩ := exists_padding cs
    rw [hcs, hnil, List.append_nil, allBlank, List.all_append, Bool.and_eq_true]
    exact ⟨hfront, hback⟩
  · intro hblank
    rw [trim, trimStart_eq_nil_iff.mpr hblank]
    rfl

end

section
variable {sep : Char} {cs : List Char}

theorem cutFirst_eq_none_iff : cutFirst sep cs = none ↔ sep ∉ cs := by
  induction cs with
  | nil => simp [cutFirst]
  | cons c cs ih =>
    rw [cutFirst]
    by_cases hc : c = sep
    · simp [hc]
    · rw [if_neg hc, Option.map_eq_none_iff, ih, List.mem_cons, not_or]
      exact ⟨fun h => ⟨Ne.symm hc, h⟩, And.right⟩

theorem cutFirst_eq_some_iff {before after : List Char} :
    cutFirst sep cs = some (before, after) ↔ sep ∉ before ∧ cs = before ++ sep :: after := by
  induction cs generalizing before after with
  | nil => simp [cutFirst]
  | cons c cs ih =>
    rw [cutFirst]
    by_cases hc : c = sep
    · -- the cut is here, so nothing stands before it
      subst hc
      rw [if_pos rfl, Option.some.injEq, Prod.mk.injEq]
      constructor
      · rintro ⟨rfl, rfl⟩
        exact ⟨List.not_mem_nil, rfl⟩
      · rintro ⟨hnot, heq⟩
        cases before with
        | nil => exact ⟨rfl, (List.cons.inj heq).2⟩
        | cons b before => exact absurd (.head _) ((List.cons.inj heq).1 ▸ hnot)
    · rw [if_neg hc, Option.map_eq_some_iff]
      constructor
      · rintro ⟨⟨front, rest⟩, hcut, heq⟩
        obtain ⟨hnot, rfl⟩ := ih.mp hcut
        cases heq
        refine ⟨?_, rfl⟩
        rw [List.mem_cons, not_or]
        exact ⟨Ne.symm hc, hnot⟩
      · rintro ⟨hnot, heq⟩
        cases before with
        | nil => exact absurd (List.cons.inj heq).1 hc
        | cons b before =>
          obtain ⟨rfl, rfl⟩ := List.cons.inj heq
          rw [List.mem_cons, not_or] at hnot
          exact ⟨(before, after), ih.mpr ⟨hnot.2, rfl⟩, rfl⟩

theorem pieces_eq_splitOn (sep : Char) (cs : List Char) : pieces sep cs = cs.splitOn sep := by
  induction cs with
  | nil => rfl
  | cons c cs ih =>
    rw [List.splitOn_cons_eq_if_modifyHead, ← ih, pieces, List.foldr_cons, ← pieces]
    by_cases hc : c = sep
    · simp [hc]
    · rcases hp : pieces sep cs with _ | ⟨p, rest⟩
      · -- there is always a piece
        rw [ih] at hp
        exact absurd hp (List.splitOn_ne_nil sep cs)
      · simp [hc]

theorem not_mem_of_mem_pieces {p : List Char} (h : p ∈ pieces sep cs) : sep ∉ p := by
  induction cs generalizing p with
  | nil =>
    rw [List.mem_singleton.mp h]
    exact List.not_mem_nil
  | cons c cs ih =>
    rw [pieces_eq_splitOn, List.splitOn_cons_eq_if_modifyHead, ← pieces_eq_splitOn] at h
    split at h
    · rcases List.mem_cons.mp h with rfl | h
      · exact List.not_mem_nil
      · exact ih h
    · -- the character goes to the first piece, and is no separator
      rename_i hc
      rcases hp : pieces sep cs with _ | ⟨q, rest⟩
      · rw [hp] at h
        cases h
      · rw [hp, List.modifyHead_cons] at h
        rcases List.mem_cons.mp h with rfl | h
        · have hq : sep ∉ q := ih (hp ▸ .head _)
          rw [List.mem_cons, not_or]
          exact ⟨fun heq => hc (by rw [heq, beq_self_eq_true]), hq⟩
        · exact ih (hp ▸ .tail _ h)

end
end BenchMetrics.Text
