import Mathlib.Data.List.Nodup
import Mathlib.Data.List.Perm.Basic

/-! Lists in which no two elements have the same key: what is found under a key does not depend on
the order of the elements. -/
namespace BenchMetrics

section
variable {α β : Type} [DecidableEq β] {key : α → β} {xs ys : List α}

/-- Where keys are distinct, each element is found under its own. -/
theorem find?_of_distinct (hn : (xs.map key).Nodup) {x : α} (hx : x ∈ xs) :
    xs.find? (fun y => key y = key x) = some x := by
  induction xs with
  | nil => cases hx
  | cons y xs ih =>
    rw [List.map_cons, List.nodup_cons] at hn
    rw [List.find?_cons]
    rcases List.mem_cons.mp hx with rfl | hx
    · simp
    · have hne : key y ≠ key x := by
        intro heq
        exact hn.1 (heq ▸ List.mem_map_of_mem hx)
      simp only [hne, decide_false]
      exact ih hn.2 hx

theorem find?_key_eq_some_iff (hn : (xs.map key).Nodup) {k : β} {x : α} :
    xs.find? (fun y => key y = k) = some x ↔ x ∈ xs ∧ key x = k := by
  constructor
  · intro h
    have hkey := List.find?_some h
    exact ⟨List.mem_of_find?_eq_some h, of_decide_eq_true hkey⟩
  · rintro ⟨hx, rfl⟩
    exact find?_of_distinct hn hx

theorem find?_key_of_perm (h : xs.Perm ys) (hn : (xs.map key).Nodup) (k : β) :
    xs.find? (fun y => key y = k) = ys.find? (fun y => key y = k) := by
  have hn' : (ys.map key).Nodup := (h.map key).nodup_iff.mp hn
  apply Option.ext
  intro x
  rw [find?_key_eq_some_iff hn, find?_key_eq_some_iff hn', h.mem_iff]

end

end BenchMetrics
