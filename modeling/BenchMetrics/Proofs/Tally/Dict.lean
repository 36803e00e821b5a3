import BenchMetrics.Dict
import Mathlib.Data.List.Fold
import Mathlib.Data.List.Nodup
import Mathlib.Data.List.Perm.Basic
import Mathlib.Data.List.Pairwise

/-! Maps are what they answer: the keys ascend, so that equal answers leave no choice of the
entries. -/
namespace BenchMetrics.Dict

variable {α : Type}

theorem nodup_keys (d : Dict α) : d.keys.Nodup := by
  apply d.ascending.imp
  intro k l hkl heq
  rw [heq] at hkl
  exact String.lt_irrefl l hkl

theorem get?_eq_some_iff (d : Dict α) (k : String) (v : α) :
    d.get? k = some v ↔ (k, v) ∈ d.entries := by
  have hnodup : (d.entries.map Prod.fst).Nodup := d.nodup_keys
  rw [get?]
  generalize d.entries = es at hnodup
  induction es with
  | nil => simp
  | cons e es ih =>
    obtain ⟨key, value⟩ := e
    rw [List.map_cons, List.nodup_cons] at hnodup
    have hes : es.lookup k = some v ↔ (k, v) ∈ es := ih hnodup.2
    by_cases hk : k = key
    · -- the key is bound at the head, hence nowhere in the tail
      subst hk
      have htail : (k, v) ∉ es := fun h => hnodup.1 (List.mem_map.mpr ⟨(k, v), h, rfl⟩)
      simp [htail, eq_comm]
    · rw [lookup_cons_eq, if_neg hk, hes]
      simp [hk]

theorem ext_get? {d d' : Dict α} (h : ∀ k, d.get? k = d'.get? k) : d = d' := by
  have hentries : d.entries = d'.entries := by
    have hsorted : ∀ f : Dict α, f.entries.Pairwise fun a b => a.1 < b.1 :=
      fun f => List.pairwise_map.mp f.ascending
    have hperm : d.entries.Perm d'.entries := by
      apply (List.perm_ext_iff_of_nodup d.nodup_keys.of_map d'.nodup_keys.of_map).mpr
      intro e
      rw [← get?_eq_some_iff, ← get?_eq_some_iff, h]
    apply List.Perm.eq_of_pairwise _ (hsorted d) (hsorted d') hperm
    intro a b _ _ hab hba
    exact absurd (String.lt_trans hab hba) (String.lt_irrefl a.1)
  cases d
  cases d'
  cases hentries
  rfl

theorem get?_foldl_insert {es : List (String × α)} {k : String} (hk : k ∉ es.map Prod.fst)
    (d : Dict α) : (es.foldl (fun d e => d.insert e.1 e.2) d).get? k = d.get? k := by
  induction es generalizing d with
  | nil => rfl
  | cons e es ih =>
    rw [List.map_cons, List.mem_cons, not_or] at hk
    rw [List.foldl_cons, ih hk.2, get?_insert, if_neg hk.1]

theorem get?_ofList_of_not_mem {es : List (String × α)} {k : String}
    (hk : k ∉ es.map Prod.fst) : (ofList es).get? k = none :=
  get?_foldl_insert hk empty

/-- Among bindings of different keys, none replaces another. -/
theorem get?_ofList_of_mem {es : List (String × α)} (hn : (es.map Prod.fst).Nodup)
    {k : String} {v : α} (h : (k, v) ∈ es) : (ofList es).get? k = some v := by
  rw [ofList]
  generalize (empty : Dict α) = d
  induction es generalizing d with
  | nil => cases h
  | cons e es ih =>
    rw [List.map_cons, List.nodup_cons] at hn
    rw [List.foldl_cons]
    rcases List.mem_cons.mp h with heq | hmem
    · subst heq
      have hlater := get?_foldl_insert hn.1 (d.insert k v)
      rw [get?_insert, if_pos rfl] at hlater
      exact hlater
    · exact ih hn.2 hmem _

theorem isSome_lookup {es : List (String × α)} {k : String} :
    (es.lookup k).isSome ↔ k ∈ es.map Prod.fst := by
  induction es with
  | nil => simp
  | cons e es ih =>
    obtain ⟨key, value⟩ := e
    rw [lookup_cons_eq, List.map_cons, List.mem_cons, ← ih]
    by_cases h : k = key <;> simp [h]

theorem mem_keys_iff (d : Dict α) (k : String) : k ∈ d.keys ↔ (d.get? k).isSome :=
  isSome_lookup.symm

theorem ofList_entries (d : Dict α) : ofList d.entries = d := by
  apply ext_get?
  intro k
  by_cases hk : k ∈ d.entries.map Prod.fst
  · obtain ⟨e, he, rfl⟩ := List.mem_map.mp hk
    rw [get?_ofList_of_mem d.nodup_keys he]
    exact ((d.get?_eq_some_iff _ _).mpr he).symm
  · have hnone : ¬ (d.get? k).isSome := fun h => hk (isSome_lookup.mp h)
    rw [get?_ofList_of_not_mem hk]
    exact (Option.not_isSome_iff_eq_none.mp hnone).symm

/-- A map made of bindings of different keys holds just these. -/
theorem perm_ofList {es : List (String × α)} (hn : (es.map Prod.fst).Nodup) :
    (ofList es).entries.Perm es := by
  apply (List.perm_ext_iff_of_nodup (ofList es).nodup_keys.of_map hn.of_map).mpr
  intro e
  obtain ⟨k, v⟩ := e
  rw [← get?_eq_some_iff]
  constructor
  · intro h
    have hk : k ∈ es.map Prod.fst := by
      by_contra hnot
      rw [get?_ofList_of_not_mem hnot] at h
      cases h
    obtain ⟨⟨k', v'⟩, hmem, rfl⟩ := List.mem_map.mp hk
    rw [get?_ofList_of_mem hn hmem] at h
    exact Option.some.inj h ▸ hmem
  · exact get?_ofList_of_mem hn

theorem mem_keys_ofList {es : List (String × α)} (hn : (es.map Prod.fst).Nodup) (k : String) :
    k ∈ (ofList es).keys ↔ k ∈ es.map Prod.fst :=
  ((perm_ofList hn).map Prod.fst).mem_iff

theorem put_of_first {k : String} {a : α} {es : List (String × α)}
    (h : ∀ l ∈ es.map Prod.fst, k < l) : put k a es = (k, a) :: es := by
  cases es with
  | nil => rfl
  | cons e es => rw [put, if_pos (h e.1 (.head _))]

section
variable {ks : List String} {k : String} {n : Nat}

/-- Among different keys, one that had nothing is given a number. -/
theorem foldr_add_of_mem (f : String → Nat) (hn : ks.Nodup) (hk : k ∈ ks) (hf : f k = 0) :
    (ks.map fun l => if l = k then n else f l).foldr (· + ·) 0 =
      n + (ks.map f).foldr (· + ·) 0 := by
  induction ks with
  | nil => cases hk
  | cons l ks ih =>
    rw [List.nodup_cons] at hn
    rw [List.map_cons, List.foldr_cons, List.map_cons, List.foldr_cons]
    by_cases hl : l = k
    · -- the key is not among the others
      subst hl
      have hrest : (ks.map fun m => if m = l then n else f m) = ks.map f := by
        apply List.map_congr_left
        intro m hm
        exact if_neg fun heq : m = l => hn.1 (heq ▸ hm)
      rw [if_pos rfl, hrest, hf, Nat.zero_add]
    · have hmem : k ∈ ks := (List.mem_cons.mp hk).resolve_left (Ne.symm hl)
      rw [if_neg hl, ih hn.2 hmem]
      omega

/-- The sum of all values is the sum over any keys that all bindings are under. -/
theorem sum_values (d : Dict Nat) (hn : ks.Nodup) (hks : ∀ k ∈ d.keys, k ∈ ks) :
    d.values.foldl (· + ·) 0 = (ks.map fun k => (d.get? k).getD 0).foldl (· + ·) 0 := by
  have hkeys := d.nodup_keys
  rw [List.foldl_eq_foldr, List.foldl_eq_foldr]
  unfold keys at hks hkeys
  unfold values get?
  generalize d.entries = es at hks hkeys
  induction es with
  | nil =>
    induction ks with
    | nil => rfl
    | cons k ks ih => simpa using ih (List.nodup_cons.mp hn).2 (by simp)
  | cons e es ih =>
    obtain ⟨key, value⟩ := e
    rw [List.map_cons, List.nodup_cons] at hkeys
    rw [List.map_cons, List.forall_mem_cons] at hks
    have hfree : (es.lookup key).getD 0 = 0 := by
      have hnone : ¬ (es.lookup key).isSome := fun h => hkeys.1 (isSome_lookup.mp h)
      rw [Option.not_isSome_iff_eq_none.mp hnone, Option.getD_none]
    have hlookup : (fun k => (((key, value) :: es).lookup k).getD 0) =
        fun k => if k = key then value else (es.lookup k).getD 0 := by
      funext k
      rw [lookup_cons_eq]
      split <;> rfl
    rw [hlookup, foldr_add_of_mem _ hn hks.1 hfree, List.map_cons, List.foldr_cons,
      ih hks.2 hkeys.2]

end

end BenchMetrics.Dict
