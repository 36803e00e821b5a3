import BenchMetrics.Proofs.Catalog.Naming
import BenchMetrics.Proofs.Tally.Dict
import BenchMetrics.Run.Engine

/-! The tally of rejections is a count of tags, whatever their order. -/
namespace BenchMetrics

namespace Engine

theorem get?_tally (d : Dict Nat) (s t : Tag) :
    (tally d s).get? t.text = if t = s then some ((d.get? t.text).getD 0 + 1)
      else d.get? t.text := by
  rw [tally, Dict.modify, Dict.get?_insert]
  by_cases h : t = s
  · rw [h, if_pos rfl, if_pos rfl]
  · rw [if_neg h, if_neg (fun ht => h (Tag.text_inj.mp ht))]

/-- A tally counts how often a tag came. -/
theorem getD_foldl_tally (d : Dict Nat) (ts : List Tag) (t : Tag) :
    ((ts.foldl tally d).get? t.text).getD 0 = (d.get? t.text).getD 0 + ts.count t := by
  induction ts generalizing d with
  | nil => rfl
  | cons s ts ih =>
    rw [List.foldl_cons, ih, get?_tally, List.count_cons]
    by_cases h : t = s
    · subst h
      simp
      omega
    · have hs : ¬ s = t := fun hs => h hs.symm
      simp [h, hs]

theorem tally_right_comm (d : Dict Nat) (s t : Tag) : tally (tally d s) t = tally (tally d t) s := by
  by_cases hst : s = t
  · rw [hst]
  · apply Dict.ext_get?
    intro k
    -- every key is the text of some tag
    have hkey : k = (Tag.mk k).text := rfl
    rw [hkey]
    generalize Tag.mk k = u
    rw [get?_tally, get?_tally, get?_tally, get?_tally]
    by_cases hs : u = s
    · have ht : ¬ u = t := fun ht => hst (hs.symm.trans ht)
      simp [hs, hst]
    · simp [hs]

theorem foldl_tally_of_perm {ss ts : List Tag} (h : ss.Perm ts) (d : Dict Nat) :
    ss.foldl tally d = ts.foldl tally d :=
  h.foldl_eq' (fun s _ t _ d => tally_right_comm d s t) d

/-- What is tallied is tallied under one of these tags, and counts something. -/
def TalliedUnder (tags : List Tag) (d : Dict Nat) : Prop :=
  ∀ k n, d.get? k = some n → k ∈ tags.map Tag.text ∧ 1 ≤ n

section
variable {tags ts : List Tag} {d : Dict Nat} {t : Tag}

theorem talliedUnder_empty (tags : List Tag) : TalliedUnder tags .empty := nofun

theorem TalliedUnder.tally (h : TalliedUnder tags d) (ht : t ∈ tags) :
    TalliedUnder tags (tally d t) := by
  intro k n hkn
  rw [Engine.tally, Dict.modify, Dict.get?_insert] at hkn
  by_cases hk : k = t.text
  · rw [if_pos hk, Option.some.injEq] at hkn
    exact ⟨hk ▸ List.mem_map_of_mem ht, by omega⟩
  · rw [if_neg hk] at hkn
    exact h k n hkn

theorem TalliedUnder.foldl (h : TalliedUnder tags d) (hts : ∀ t ∈ ts, t ∈ tags) :
    TalliedUnder tags (ts.foldl Engine.tally d) := by
  induction ts generalizing d with
  | nil => exact h
  | cons t ts ih =>
    rw [List.forall_mem_cons] at hts
    exact ih (h.tally hts.1) hts.2

end

end Engine
end BenchMetrics
