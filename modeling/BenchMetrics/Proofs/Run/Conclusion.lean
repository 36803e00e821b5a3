import BenchMetrics.Proofs.Statistics.Realized
import BenchMetrics.Proofs.Tally.Rejection
import BenchMetrics.Run.Summary
import Mathlib.Data.List.Forall2

/-! The end of a run. The pass over the summary metrics changes those alone, and a run whose pass
is not stopped ends in a summary: figures can be made of every value. -/
namespace BenchMetrics

/-- Unless it is stopped, the pass keeps all metrics in their places, and changes none that is
not a summary metric. -/
theorem Engine.summarizeFrom_frame {ms : List Accumulator} {v : View}
    (h : (summarizeFrom v ms).stopped = none) :
    List.Forall₂ (fun a b => b.descriptor = a.descriptor ∧
      (a.descriptor.stage ≠ .summary → b = a)) ms (summarizeFrom v ms).metrics := by
  induction ms generalizing v with
  | nil => exact .nil
  | cons a ms ih =>
    rw [summarizeFrom] at h ⊢
    split at h
    · rename_i hs
      rw [if_pos hs]
      have hsummary : ∀ b : Accumulator, a.descriptor.stage ≠ .summary → b = a :=
        fun _ hne => absurd hs hne
      have hdescriptor : (a.update none v).1.descriptor = a.descriptor := rfl
      rcases hu : a.update none v with ⟨b, result⟩
      rw [hu] at h hdescriptor
      cases result with
      | ok _ => exact .cons ⟨hdescriptor, hsummary b⟩ (ih h)
      | error e =>
        dsimp only at h ⊢
        split at h
        · cases h
        · rename_i hfatal
          rw [if_neg hfatal]
          exact .cons ⟨hdescriptor, hsummary b⟩ (ih h)
    · rename_i hs
      rw [if_neg hs]
      exact .cons ⟨rfl, fun _ => rfl⟩ (ih h)

namespace Engine

theorem exists_mapM_ok {α β ε : Type} {f : α → Except ε β} {xs : List α}
    (h : ∀ x ∈ xs, ∃ y, f x = .ok y) : ∃ ys, xs.mapM f = .ok ys := by
  induction xs with
  | nil => exact ⟨[], rfl⟩
  | cons x xs ih =>
    obtain ⟨y, hy⟩ := h x (.head _)
    obtain ⟨ys, hys⟩ := ih fun z hz => h z (.tail _ hz)
    refine ⟨y :: ys, ?_⟩
    rw [List.mapM_cons, hy, hys]
    rfl

theorem finish_ok {e : Engine} (h : (summarizeFrom [] e.metrics).stopped = none)
    (ending : Ending) : ∃ results, e.finish ending = .ok {
      processed := e.processed
      failed := e.failed
      unusable := e.unusable
      rejections := (summarizeFrom [] e.metrics).rejected.foldl tally e.rejections
      results := results
      values := valuesOf (summarizeFrom [] e.metrics).metrics
      failures := (if ending = .cancelled then e.failures.markCancelled else e.failures).report
      wasPartial := decide (ending = .cancelled) } := by
  have hall : ∀ a ∈ (summarizeFrom [] e.metrics).metrics, ∃ result,
      MetricResult.ofValue a.descriptor a.value e.settings.displayUnit = .ok result :=
    fun a _ => MetricResult.ofValue_ok a.descriptor a.value e.settings.displayUnit
  obtain ⟨results, hresults⟩ := exists_mapM_ok hall
  refine ⟨results, ?_⟩
  unfold finish
  simp only [h, hresults, bind, Except.bind]

variable {ms : List Accumulator}

theorem keys_bound (ms : List Accumulator) :
    (ms.map fun a => (a.tag.text, a.value)).map Prod.fst = ms.map (·.tag.text) := by
  rw [List.map_map]
  rfl

theorem nodup_texts (hn : (ms.map (·.tag)).Nodup) : (ms.map (·.tag.text)).Nodup := by
  have htext : ms.map (·.tag.text) = (ms.map (·.tag)).map Tag.text := by
    rw [List.map_map]
    rfl
  rw [htext]
  exact Tag.nodup_texts hn

theorem get?_valuesOf (hn : (ms.map (·.tag)).Nodup) {a : Accumulator} (ha : a ∈ ms) :
    (valuesOf ms).get? a.tag.text = some a.value := by
  apply Dict.get?_ofList_of_mem
  · rw [keys_bound]
    exact nodup_texts hn
  · exact List.mem_map.mpr ⟨a, ha, rfl⟩

theorem get?_valuesOf_eq_none {t : Tag} (ht : t ∉ ms.map (·.tag)) :
    (valuesOf ms).get? t.text = none := by
  apply Dict.get?_ofList_of_not_mem
  rw [keys_bound]
  intro hmem
  obtain ⟨a, ha, heq⟩ := List.mem_map.mp hmem
  exact ht (List.mem_map.mpr ⟨a, ha, Tag.text_inj.mp heq⟩)

end Engine
end BenchMetrics
