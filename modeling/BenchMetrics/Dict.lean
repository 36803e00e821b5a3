/-! Maps from text to values, kept in ascending order of their keys, so that two maps with
the same bindings are equal. -/
namespace BenchMetrics

structure Dict (α : Type) where
  entries : List (String × α)
  ascending : (entries.map Prod.fst).Pairwise (· < ·)
  deriving DecidableEq

namespace Dict

variable {α β : Type}

/-- Puts a binding in its place and takes out the one it replaces. -/
def put (key : String) (value : α) : List (String × α) → List (String × α)
  | [] => [(key, value)]
  | (k, v) :: rest =>
    if key < k then (key, value) :: (k, v) :: rest
    else if key = k then (key, value) :: rest
    else (k, v) :: put key value rest

theorem mem_keys_put {key k : String} {value : α} {es : List (String × α)} :
    k ∈ (put key value es).map Prod.fst ↔ k = key ∨ k ∈ es.map Prod.fst := by
  induction es with
  | nil => simp [put]
  | cons e rest ih =>
    obtain ⟨k', v'⟩ := e
    simp only [put]
    split
    · simp
    split
    · rename_i h; subst h; simp
    · simp only [List.map_cons, List.mem_cons, ih]
      constructor <;> rintro (h | h | h) <;> simp [h]

theorem pairwise_put {key : String} {value : α} {es : List (String × α)}
    (h : (es.map Prod.fst).Pairwise (· < ·)) :
    ((put key value es).map Prod.fst).Pairwise (· < ·) := by
  induction es with
  | nil => simp [put]
  | cons e rest ih =>
    obtain ⟨k', v'⟩ := e
    simp only [List.map_cons, List.pairwise_cons] at h
    simp only [put]
    split
    · rename_i hlt
      simp only [List.map_cons, List.pairwise_cons, List.mem_cons]
      refine ⟨?_, h⟩
      rintro k (rfl | hk)
      · exact hlt
      · exact String.lt_trans hlt (h.1 k hk)
    split
    · rename_i heq
      subst heq
      simpa using h
    · rename_i hlt hne
      simp only [List.map_cons, List.pairwise_cons]
      refine ⟨fun k hk => ?_, ih h.2⟩
      rcases mem_keys_put.1 hk with rfl | hk
      · rcases Std.lt_trichotomy k' k with h' | h' | h'
        · exact h'
        · exact absurd h'.symm hne
        · exact absurd h' hlt
      · exact h.1 k hk

theorem lookup_cons_eq {k key : String} {value : α} {es : List (String × α)} :
    ((key, value) :: es).lookup k = if k = key then some value else es.lookup k := by
  by_cases h : k = key
  · simp [h]
  · have hb : (k == key) = false := beq_eq_false_iff_ne.2 h
    simp [List.lookup_cons, h, hb]

theorem lookup_put {key k : String} {value : α} {es : List (String × α)} :
    (put key value es).lookup k = if k = key then some value else es.lookup k := by
  induction es with
  | nil => exact lookup_cons_eq
  | cons e rest ih =>
    obtain ⟨k', v'⟩ := e
    simp only [put]
    split
    · exact lookup_cons_eq
    split
    · rename_i heq
      subst heq
      simp only [lookup_cons_eq]
      split <;> rfl
    · rename_i hne
      simp only [lookup_cons_eq, ih]
      by_cases h : k = k'
      · have hk : k ≠ key := fun hk => hne (hk.symm.trans h)
        rw [if_pos h, if_neg hk, if_pos h]
      · rw [if_neg h, if_neg h]

def empty : Dict α := ⟨[], by simp⟩

instance : Inhabited (Dict α) := ⟨empty⟩

def insert (d : Dict α) (key : String) (value : α) : Dict α :=
  ⟨put key value d.entries, pairwise_put d.ascending⟩

/-- Later bindings of a key replace earlier ones. -/
def ofList (es : List (String × α)) : Dict α :=
  es.foldl (fun d (k, v) => d.insert k v) empty

def get? (d : Dict α) (key : String) : Option α := d.entries.lookup key

def keys (d : Dict α) : List String := d.entries.map Prod.fst

def values (d : Dict α) : List α := d.entries.map Prod.snd

/-- Changes the value under a key, which is taken to be `start` where there is none. -/
def modify (d : Dict α) (key : String) (start : α) (f : α → α) : Dict α :=
  d.insert key (f ((d.get? key).getD start))

theorem get?_insert (d : Dict α) (key k : String) (value : α) :
    (d.insert key value).get? k = if k = key then some value else d.get? k :=
  lookup_put

end Dict
end BenchMetrics
