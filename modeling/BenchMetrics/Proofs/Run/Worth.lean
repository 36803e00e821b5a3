import BenchMetrics.Metric.Accumulator
import Mathlib.Data.List.Basic
import Mathlib.Data.List.Forall2

/-! What a record is worth to a metric, read off the record alone: a series or a fold computes a
number from it, and a rate is taken over the slot that an earlier metric has for the same
record. A metric that has been fed records holds one slot, or one summand, for each. -/
namespace BenchMetrics

/-- The slots that metrics have for one record, under their tags. -/
abbrev Shown := List (Tag × Option Sample)

namespace Cell

def rateOf (source : Tag) (label : String) (slot : Option Sample) : Except Fault Float :=
  match slot with
  | none => .error (.missingDependency source)
  | some x =>
    if x.toFloat ≤ 0.0 then .error (.zeroValue label) else .ok (nanosPerSecond / x.toFloat)

theorem rateAt_eq (source : Tag) (label : String) (slots : Array (Option Sample))
    (position : Nat) :
    rateAt source label slots position = rateOf source label slots[position]?.join := rfl

/-- A cell that holds nothing yet. -/
def IsNew : Cell → Prop
  | .series _ slots => slots = #[]
  | .fold _ _ current => current = none
  | .timestamp _ _ current => current = none
  | .derived _ current => current = none
  | .rate _ _ cursor slots => cursor = 0 ∧ slots = #[]

def takesRecords : Cell → Bool
  | .derived _ _ => false
  | _ => true

/-- What a record is worth, given the slots that earlier metrics have for it; nothing if it is
rejected. -/
def worth (r : Record) (shown : Shown) : Cell → Option Float
  | .series compute _ => (compute r).toOption
  | .fold compute _ _ => (compute r).toOption
  | .timestamp compute _ _ => (compute r).toOption.map nanosToFloat
  | .derived _ _ => none
  | .rate source label _ _ => (rateOf source label (shown.lookup source).join).toOption

/-- The slots of a cell that keeps one for every record. -/
def slots? : Cell → Option (Array (Option Sample))
  | .series _ slots | .rate _ _ _ slots => some slots
  | _ => none

def slot (r : Record) (shown : Shown) (c : Cell) : Option Sample :=
  c.slots?.bind fun _ => (c.worth r shown).map .of

theorem series?_value (c : Cell) : c.value.series? = c.slots? := by
  cases c with
  | series compute slots => rfl
  | fold compute combine current => cases current <;> rfl
  | timestamp compute combine current => cases current <;> rfl
  | derived formula current => cases current <;> rfl
  | rate source label cursor slots => rfl

/-- All numbers combined, in order. -/
def gathered {α : Type} (combine : α → α → α) (xs : List α) : Option α :=
  xs.foldl (fun current x => some (combined combine current x)) none

theorem gathered_snoc {α : Type} (combine : α → α → α) (xs : List α) (x : α) :
    gathered combine (xs ++ [x]) = some (combined combine (gathered combine xs) x) := by
  rw [gathered, List.foldl_append]
  rfl

/-- The first number, combined with each number after it from the left. -/
def leftFold {α : Type} (combine : α → α → α) : List α → Option α
  | [] => none
  | x :: xs => some (xs.foldl combine x)

theorem gathered_eq_leftFold {α : Type} (combine : α → α → α) (xs : List α) :
    gathered combine xs = leftFold combine xs := by
  cases xs with
  | nil => rfl
  | cons x xs =>
    show xs.foldl (fun current y => some (combined combine current y)) (some x) = _
    induction xs generalizing x with
    | nil => rfl
    | cons y ys ih => exact ih (combine x y)

theorem leftFold_snoc {α : Type} (combine : α → α → α) (xs : List α) (x : α) :
    leftFold combine (xs ++ [x]) = some (combined combine (leftFold combine xs) x) := by
  rw [← gathered_eq_leftFold, ← gathered_eq_leftFold, gathered_snoc]

/-- A new cell after records, each worth what `worth` says. -/
def after (worth : Record → Option Float) (fs : List Record) : Cell → Cell
  | .series compute _ => .series compute (fs.map fun r => (worth r).map .of).toArray
  | .fold compute combine _ => .fold compute combine (gathered combine (fs.filterMap worth))
  | .timestamp compute combine _ =>
    .timestamp compute combine (gathered combine (fs.filterMap fun r => (compute r).toOption))
  | .derived formula current => .derived formula current
  | .rate source label _ _ =>
    .rate source label fs.length (fs.map fun r => (worth r).map .of).toArray

theorem slots?_after (worth : Record → Option Float) (fs : List Record) (c : Cell) :
    (c.after worth fs).slots? =
      c.slots?.map fun _ => (fs.map fun r => (worth r).map .of).toArray := by
  cases c <;> rfl

theorem slots?_of_isNew {c : Cell} (h : c.IsNew) : c.slots? = none ∨ c.slots? = some #[] := by
  cases c with
  | series compute slots => exact Or.inr (congrArg some h)
  | rate source label cursor slots => exact Or.inr (congrArg some h.2)
  | fold | timestamp | derived => exact Or.inl rfl

theorem after_nil {c : Cell} (h : c.IsNew) (worth : Record → Option Float) :
    c.after worth [] = c := by
  cases c with
  | series compute slots => rw [show slots = #[] from h]; rfl
  | fold compute combine current => rw [show current = none from h]; rfl
  | timestamp compute combine current => rw [show current = none from h]; rfl
  | derived formula current => rfl
  | rate source label cursor slots =>
    obtain ⟨hc, hs⟩ := h
    rw [hc, hs]
    rfl

end Cell

def Exposed.slotAt (e : Exposed) (n : Nat) : Option Sample :=
  e.value.series?.bind fun slots => slots[n]?.join

/-- The slot at a position of the series under a tag, as a metric finds it in its view. -/
def View.slotAt (v : View) (t : Tag) (n : Nat) : Option Sample :=
  (v.find? t).bind fun e => e.slotAt n

/-- The view has, at a position, the slots that are shown. -/
def View.Shows (v : View) (n : Nat) (shown : Shown) : Prop :=
  List.Forall₂ (fun e s => e.tag = s.1 ∧ e.slotAt n = s.2) v shown

theorem View.Shows.slotAt_eq {v : View} {n : Nat} {shown : Shown} (h : v.Shows n shown)
    (t : Tag) : v.slotAt t n = (shown.lookup t).join := by
  unfold View.slotAt View.find?
  induction h with
  | nil => rfl
  | @cons e s v shown hes _ ih =>
    obtain ⟨tag, slot⟩ := s
    obtain ⟨rfl, rfl⟩ := hes
    by_cases ht : e.tag = t
    · simp [ht]
    · -- both look further
      have hne : (t == e.tag) = false := beq_eq_false_iff_ne.mpr (Ne.symm ht)
      simp only [List.find?_cons, ht, decide_false, List.lookup_cons, hne]
      exact ih

/-- What is the first under its tag is found there. -/
theorem View.find?_of_first {before rest : View} {x : Exposed}
    (h : x.tag ∉ before.map (·.tag)) : View.find? (before ++ x :: rest) x.tag = some x := by
  have hnone : List.find? (fun e => e.tag = x.tag) before = none := by
    rw [List.find?_eq_none]
    intro e he heq
    exact h (List.mem_map.mpr ⟨e, he, of_decide_eq_true heq⟩)
  rw [View.find?, List.find?_append, hnone, Option.none_or, List.find?_cons]
  simp

/-- The series that a metric finds under a tag, if it finds one. -/
theorem View.series_cases (v : View) (owner t : Tag) :
    (v.series owner t = .error (.missingValue owner t) ∧ ∀ n, v.slotAt t n = none) ∨
      ∃ slots, v.series owner t = .ok slots ∧ ∀ n, v.slotAt t n = slots[n]?.join := by
  unfold View.series View.demand View.slotAt
  cases hf : v.find? t with
  | none => exact Or.inl ⟨rfl, fun _ => rfl⟩
  | some e =>
    simp only [Option.bind_some, Exposed.slotAt]
    cases hs : e.value.series? with
    | none => exact Or.inl ⟨rfl, fun _ => rfl⟩
    | some slots => exact Or.inr ⟨slots, rfl, fun _ => rfl⟩

namespace Accumulator

theorem slotAt_exposed (a : Accumulator) (n : Nat) :
    a.exposed.slotAt n = a.cell.slots?.bind fun slots => slots[n]?.join := by
  rw [← Cell.series?_value]
  rfl

/-- What a metric shows for a record to those evaluated after it. -/
def shown (r : Record) (before : Shown) (a : Accumulator) : Tag × Option Sample :=
  (a.tag, if a.descriptor.stage.takesRecords then a.cell.slot r before else none)

def showAll (r : Record) (ms : List Accumulator) : Shown :=
  ms.foldl (fun before a => before ++ [a.shown r before]) []

theorem showAll_snoc (r : Record) (ms : List Accumulator) (a : Accumulator) :
    showAll r (ms ++ [a]) = showAll r ms ++ [a.shown r (showAll r ms)] := by
  rw [showAll, List.foldl_append]
  rfl

/-- What a record is worth to a metric that is evaluated after those in `before`. -/
def worth (a : Accumulator) (before : List Accumulator) (r : Record) : Option Float :=
  a.cell.worth r (showAll r before)

/-- A new metric after records; one that takes none stays as it is. -/
def after (a : Accumulator) (before : List Accumulator) (fs : List Record) : Accumulator :=
  if a.descriptor.stage.takesRecords then
    { a with cell := a.cell.after (a.worth before) fs }
  else a

theorem after_descriptor (a : Accumulator) (before : List Accumulator) (fs : List Record) :
    (a.after before fs).descriptor = a.descriptor := by
  unfold after
  split <;> rfl

theorem after_tag (a : Accumulator) (before : List Accumulator) (fs : List Record) :
    (a.after before fs).tag = a.tag :=
  congrArg Descriptor.tag (a.after_descriptor before fs)

theorem after_cell {a : Accumulator} (h : a.descriptor.stage.takesRecords)
    (before : List Accumulator) (fs : List Record) :
    (a.after before fs).cell = a.cell.after (a.worth before) fs := by
  rw [after, if_pos h]

theorem after_nil {a : Accumulator} (h : a.cell.IsNew) (before : List Accumulator) :
    a.after before [] = a := by
  unfold after
  split
  · rw [Cell.after_nil h]
  · rfl

end Accumulator
end BenchMetrics
