import BenchMetrics.Proofs.Text.Trimming
import BenchMetrics.Settings.Environment

/-! Selections as text. The names that are read stand between commas, and none of them has a comma
or white space at its ends, so that joined with commas they are read as the same names again. -/
namespace BenchMetrics

namespace Text
variable {cs : List Char} {c : Char}

theorem not_isBlank_of_head?_trimStart (h : (trimStart cs).head? = some c) : ¬ isBlank c := by
  have hnot := List.head?_dropWhile_not isBlank cs
  rw [← trimStart, h] at hnot
  simp [hnot]

theorem not_isBlank_of_head?_trim (h : (trim cs).head? = some c) : ¬ isBlank c := by
  -- what is cut off the end leaves the first character where it is
  obtain ⟨back, hback⟩ : trim cs <+: trimStart cs := List.rdropWhile_prefix isBlank _
  have hstart : (trimStart cs).head? = some c := by
    rw [← hback, List.head?_append, h, Option.some_or]
  exact not_isBlank_of_head?_trimStart hstart

theorem not_isBlank_of_getLast?_trim (h : (trim cs).getLast? = some c) : ¬ isBlank c := by
  rw [trim, trimEnd, List.getLast?_reverse] at h
  exact not_isBlank_of_head?_trimStart h

theorem trimStart_eq_self (h : ∀ c, cs.head? = some c → ¬ isBlank c) : trimStart cs = cs := by
  cases cs with
  | nil => rfl
  | cons c cs => exact List.dropWhile_cons_of_neg (h c rfl)

theorem trim_eq_self (hfirst : ∀ c, cs.head? = some c → ¬ isBlank c)
    (hlast : ∀ c, cs.getLast? = some c → ¬ isBlank c) : trim cs = cs := by
  have hreverse : trimStart cs.reverse = cs.reverse := by
    apply trimStart_eq_self
    intro c hc
    exact hlast c (List.head?_reverse ▸ hc)
  rw [trim, trimStart_eq_self hfirst, trimEnd, ← trimStart, hreverse, List.reverse_reverse]

end Text

/-- A name that can stand in a list: not empty, no white space at its ends, and no comma. -/
structure TidyName (name : String) : Prop where
  named : name ≠ ""
  first : ∀ c, name.toList.head? = some c → ¬ Text.isBlank c
  last : ∀ c, name.toList.getLast? = some c → ¬ Text.isBlank c
  whole : ',' ∉ name.toList

/-- What stands between commas and is not blank. -/
def namedPieces (raw : String) : List (List Char) :=
  (raw.toList.splitOn ',').filter (!Text.allBlank ·)

theorem parseSelection_eq (raw : String) :
    parseSelection raw = (namedPieces raw).map fun piece => String.ofList (Text.trim piece) := by
  have hkept : (fun cs => !cs.isEmpty) ∘ Text.trim = (!Text.allBlank ·) := by
    funext cs
    rw [Function.comp_apply, Bool.eq_iff_iff]
    simp [Text.trim_eq_nil_iff]
  rw [parseSelection, Text.pieces_eq_splitOn, List.filter_map, hkept, List.map_map]
  rfl

theorem parseSelection_eq_nil_iff {raw : String} :
    parseSelection raw = [] ↔ ∀ piece ∈ raw.toList.splitOn ',', Text.allBlank piece := by
  rw [parseSelection_eq, List.map_eq_nil_iff, namedPieces, List.filter_eq_nil_iff]
  simp

theorem tidyName_of_mem {raw name : String} (h : name ∈ parseSelection raw) : TidyName name := by
  rw [parseSelection_eq] at h
  obtain ⟨piece, hmem, rfl⟩ := List.mem_map.mp h
  obtain ⟨hpiece, hvisible⟩ := List.mem_filter.mp hmem
  rw [← Text.pieces_eq_splitOn] at hpiece
  refine ⟨fun hempty => ?_, fun c hc => ?_, fun c hc => ?_, fun hcomma => ?_⟩
  · have hnil : Text.trim piece = [] := String.ofList_eq_empty_iff.mp hempty
    rw [Text.trim_eq_nil_iff.mp hnil] at hvisible
    cases hvisible
  · rw [String.toList_ofList] at hc
    exact Text.not_isBlank_of_head?_trim hc
  · rw [String.toList_ofList] at hc
    exact Text.not_isBlank_of_getLast?_trim hc
  · rw [String.toList_ofList] at hcomma
    exact Text.not_mem_of_mem_pieces hpiece (Text.mem_of_mem_trim hcomma)

namespace TidyName
variable {name : String}

theorem trim_eq (h : TidyName name) : Text.trim name.toList = name.toList :=
  Text.trim_eq_self h.first h.last

theorem visible (h : TidyName name) : ¬ Text.allBlank name.toList := by
  intro hblank
  have hnil := Text.trim_eq_nil_iff.mpr hblank
  rw [h.trim_eq] at hnil
  exact h.named (String.toList_eq_nil_iff.mp hnil)

end TidyName

/-- Names that can stand in a list are read from it. -/
theorem parseSelection_joined {names : List String} (h : ∀ name ∈ names, TidyName name) :
    parseSelection (",".intercalate names) = names := by
  by_cases hnames : names = []
  · -- without names the text is empty, and its one piece is blank
    rw [hnames]
    rfl
  have hsplit : (",".intercalate names).toList.splitOn ',' = names.map String.toList := by
    rw [String.toList_intercalate]
    apply List.splitOn_intercalate
    · intro piece hpiece
      obtain ⟨name, hname, rfl⟩ := List.mem_map.mp hpiece
      exact (h name hname).whole
    · simpa using hnames
  have hkept : namedPieces (",".intercalate names) = names.map String.toList := by
    rw [namedPieces, hsplit]
    apply List.filter_eq_self.mpr
    intro piece hpiece
    obtain ⟨name, hname, rfl⟩ := List.mem_map.mp hpiece
    simpa using (h name hname).visible
  calc parseSelection (",".intercalate names)
      = names.map fun name => String.ofList (Text.trim name.toList) := by
        rw [parseSelection_eq, hkept, List.map_map]
        rfl
    _ = names.map id := by
        apply List.map_congr_left
        intro name hname
        rw [(h name hname).trim_eq, String.ofList_toList, id]
    _ = names := List.map_id names

end BenchMetrics
