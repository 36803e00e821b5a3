import BenchMetrics.Run.Engine
import BenchMetrics.Metric.Measure
import Mathlib.Data.List.Forall2
import Mathlib.Data.List.Perm.Basic

/-! Two runs side by side. Their metrics are alike when series have the same slots in some order
and numbers are the same, those aside that depend on the order of a sum. What is computed from
alike metrics is alike, and so are the metrics after the pass over the summary metrics. -/
namespace BenchMetrics

/-- Two numbers, or two series; `exact` says whether the numbers have to be the same. -/
def Value.Alike (exact : Bool) : Value → Value → Prop
  | .unset, .unset => True
  | .scalar x, .scalar y => exact → x = y
  | .series xs, .series ys => xs.toList.Perm ys.toList
  | _, _ => False

theorem Value.Alike.refl (exact : Bool) (v : Value) : v.Alike exact v := by
  cases v with
  | unset => trivial
  | scalar x => exact fun _ => rfl
  | series xs => exact List.Perm.refl xs.toList

theorem Value.Alike.eq_of_scalar {v w : Value} (h : v.Alike true w) (hv : v.series? = none) :
    v = w := by
  cases v <;> cases w <;> simp_all [Value.Alike, Value.series?]

/-- Two computations: both give values that are related, or both give the same error, which is
not fatal. -/
def Together {α : Type} (R : α → α → Prop) : Except MetricError α → Except MetricError α → Prop
  | .ok x, .ok y => R x y
  | .error e, .error e' => e = e' ∧ e.isFatal = false
  | _, _ => False

theorem Together.bind {α β : Type} {R : α → α → Prop} {S : β → β → Prop}
    {x y : Except MetricError α} {f g : α → Except MetricError β} (h : Together R x y)
    (hfg : ∀ a b, R a b → Together S (f a) (g b)) : Together S (x >>= f) (y >>= g) := by
  cases x with
  | error e =>
    cases y with
    | error e' => exact h
    | ok b => exact h.elim
  | ok a =>
    cases y with
    | error e' => exact h.elim
    | ok b => exact hfg a b h

section
variable (exact : Tag → Bool)

structure Exposed.Alike (x y : Exposed) : Prop where
  tag : x.tag = y.tag
  timestamp : x.timestamp = y.timestamp
  value : x.value.Alike (exact x.tag) y.value

def View.Alike (v w : View) : Prop := List.Forall₂ (Exposed.Alike exact) v w

/-- A formula does not tell alike views apart. -/
def Blind (owner : Tag) (formula : View → Except MetricError Float) : Prop :=
  ∀ v w, View.Alike exact v w →
    Together (fun x y => exact owner → x = y) (formula v) (formula w)

/-- Alike metrics; a summary metric has the same blind formula in both runs. -/
structure Accumulator.Alike (a b : Accumulator) : Prop where
  descriptor : a.descriptor = b.descriptor
  exposed : a.exposed.Alike exact b.exposed
  summary : a.descriptor.stage = .summary → ∃ formula current current',
    a.cell = .derived formula current ∧ b.cell = .derived formula current' ∧
      Blind exact a.tag formula

variable {exact}

theorem View.Alike.find? {v w : View} (h : View.Alike exact v w) (t : Tag) :
    (View.find? v t = none ∧ View.find? w t = none) ∨
      ∃ x y, View.find? v t = some x ∧ View.find? w t = some y ∧ x.tag = t ∧
        x.Alike exact y := by
  unfold View.find?
  induction h with
  | nil => exact Or.inl ⟨rfl, rfl⟩
  | @cons x y v w hxy _ ih =>
    by_cases ht : x.tag = t
    · have ht' : y.tag = t := hxy.tag.symm.trans ht
      exact Or.inr ⟨x, y, by simp [ht], by simp [ht'], ht, hxy⟩
    · have ht' : ¬ y.tag = t := fun hy => ht (hxy.tag.trans hy)
      simp only [List.find?_cons, ht, ht', decide_false]
      exact ih

/-- What is demanded of alike views is found in both or in neither. -/
theorem View.Alike.demand {α : Type} {R : α → α → Prop} {read : Exposed → Option α}
    {v w : View} (h : View.Alike exact v w) (owner t : Tag)
    (hread : ∀ x y : Exposed, x.tag = t → x.Alike exact y → Option.Rel R (read x) (read y)) :
    Together R (v.demand owner t read) (w.demand owner t read) := by
  unfold View.demand
  rcases h.find? t with ⟨hv, hw⟩ | ⟨x, y, hv, hw, ht, hxy⟩
  · rw [hv, hw]
    exact ⟨rfl, rfl⟩
  · have hxy' := hread x y ht hxy
    rw [hv, hw, Option.bind_some, Option.bind_some]
    cases hx : read x with
    | none =>
      rw [hx] at hxy'
      cases hy : read y with
      | none => exact ⟨rfl, rfl⟩
      | some b => rw [hy] at hxy'; cases hxy'
    | some a =>
      rw [hx] at hxy'
      cases hy : read y with
      | none => rw [hy] at hxy'; cases hxy'
      | some b =>
        rw [hy] at hxy'
        cases hxy' with
        | some hab => exact hab

theorem View.Alike.scalar {v w : View} (h : View.Alike exact v w) (owner t : Tag) :
    Together (fun x y => exact t → x = y) (v.scalar owner t) (w.scalar owner t) := by
  apply h.demand owner t
  intro x y ht hxy
  obtain ⟨_, _, hvalue⟩ := hxy
  rw [ht] at hvalue
  cases hx : x.value <;> cases hy : y.value <;> rw [hx, hy] at hvalue <;>
    first
      | exact hvalue.elim
      | exact .none
      | exact .some hvalue

theorem View.Alike.timestamp {v w : View} (h : View.Alike exact v w) (owner t : Tag) :
    Together Eq (v.timestamp owner t) (w.timestamp owner t) := by
  apply h.demand owner t
  intro x y _ hxy
  rw [hxy.timestamp]
  cases y.timestamp with
  | none => exact .none
  | some ns => exact .some rfl

theorem View.Alike.series {v w : View} (h : View.Alike exact v w) (owner t : Tag) :
    Together (fun xs ys => xs.toList.Perm ys.toList) (v.series owner t) (w.series owner t) := by
  apply h.demand owner t
  intro x y _ hxy
  have hvalue := hxy.value
  cases hx : x.value <;> cases hy : y.value <;> rw [hx, hy] at hvalue <;>
    first
      | exact hvalue.elim
      | exact .none
      | exact .some hvalue

theorem View.Alike.refl (v : View) : View.Alike exact v v :=
  List.forall₂_same.mpr fun x _ => ⟨rfl, rfl, Value.Alike.refl (exact x.tag) x.value⟩

/-- A formula that does not tell alike views apart has no fatal error. -/
theorem Blind.not_fatal {owner : Tag} {formula : View → Except MetricError Float}
    (h : Blind exact owner formula) {v : View} {err : MetricError} (hv : formula v = .error err) :
    err.isFatal = false := by
  have hboth := h v v (View.Alike.refl v)
  rw [hv] at hboth
  exact hboth.2

/-- A sum is there in both runs. It need not be the same. -/
theorem blind_total {owner : Tag} (source : Tag) (howner : exact owner = false) :
    Blind exact owner (Measure.total owner source) := by
  intro v w h
  apply (h.series owner source).bind
  intro xs ys _ hexact
  rw [howner] at hexact
  cases hexact

theorem blind_span (owner first last : Tag) :
    Blind exact owner (Measure.span owner first last) := by
  intro v w h
  apply (h.timestamp owner first).bind
  intro x x' hx
  apply (h.timestamp owner last).bind
  intro y y' hy
  rw [← hx, ← hy]
  split
  · exact ⟨rfl, rfl⟩
  · exact fun _ => rfl

theorem blind_perSecond {owner amount duration : Tag} (hduration : exact duration)
    (howner : exact owner → exact amount) :
    Blind exact owner (Measure.perSecond owner amount duration) := by
  intro v w h
  apply (h.scalar owner amount).bind
  intro x x' hx
  apply (h.scalar owner duration).bind
  intro y y' hy
  rw [← hy hduration]
  split
  · exact ⟨rfl, rfl⟩
  · intro hexact
    rw [hx (howner hexact)]

/-- One summary metric: both runs give it a number, or both refuse it one. -/
theorem Accumulator.Alike.update {a b : Accumulator} (h : a.Alike exact b)
    (hs : a.descriptor.stage = .summary) {v w : View} (hvw : View.Alike exact v w) :
    ∃ a' b' result, a.update none v = (a', result) ∧ b.update none w = (b', result) ∧
      (∀ e, result = .error e → e.isFatal = false) ∧ a'.Alike exact b' := by
  obtain ⟨formula, current, current', ha, hb, hblind⟩ := h.summary hs
  have htag : b.tag = a.tag := congrArg Descriptor.tag h.descriptor.symm
  have hboth := hblind v w hvw
  unfold Accumulator.update
  rw [ha, hb]
  cases hv : formula v with
  | error e =>
    cases hw : formula w with
    | ok y => rw [hv, hw] at hboth; exact hboth.elim
    | error e' =>
      -- the held values stay
      rw [hv, hw] at hboth
      obtain ⟨rfl, hfatal⟩ := hboth
      have ha' : { a with cell := .derived formula current } = a := by rw [← ha]
      have hb' : { b with cell := .derived formula current' } = b := by rw [← hb]
      simp only [Cell.update, hv, hw, ha', hb']
      refine ⟨a, b, .error e, rfl, rfl, ?_, h⟩
      intro e' he
      cases he
      exact hfatal
  | ok x =>
    cases hw : formula w with
    | error e' => rw [hv, hw] at hboth; exact hboth.elim
    | ok y =>
      rw [hv, hw] at hboth
      simp only [Cell.update, hv, hw]
      refine ⟨{ a with cell := .derived formula (some x) },
        { b with cell := .derived formula (some y) }, .ok (), rfl, rfl, ?_, h.descriptor, ?_, ?_⟩
      · intro e he
        cases he
      · exact ⟨htag.symm, rfl, hboth⟩
      · intro _
        exact ⟨formula, some x, some y, rfl, rfl, hblind⟩

/-- The pass over the summary metrics: it is stopped in neither run, refuses the same tags, and
leaves alike metrics. -/
theorem Engine.summarizeFrom_alike {ms ns : List Accumulator} {v w : View}
    (h : List.Forall₂ (Accumulator.Alike exact) ms ns) (hvw : View.Alike exact v w) :
    (summarizeFrom v ms).stopped = none ∧ (summarizeFrom w ns).stopped = none ∧
      (summarizeFrom v ms).rejected = (summarizeFrom w ns).rejected ∧
      List.Forall₂ (Accumulator.Alike exact) (summarizeFrom v ms).metrics
        (summarizeFrom w ns).metrics := by
  induction h generalizing v w with
  | nil => exact ⟨rfl, rfl, rfl, .nil⟩
  | @cons a b ms ns hab _ ih =>
    have hgrow : ∀ a' b' : Accumulator, a'.Alike exact b' →
        View.Alike exact (v ++ [a'.exposed]) (w ++ [b'.exposed]) := by
      intro a' b' hab'
      exact List.rel_append hvw (.cons hab'.exposed .nil)
    have htag : a.tag = b.tag := congrArg Descriptor.tag hab.descriptor
    by_cases hs : a.descriptor.stage = .summary
    · have hs' : b.descriptor.stage = .summary := hab.descriptor ▸ hs
      obtain ⟨a', b', result, ha, hb, hfatal, hab'⟩ := hab.update hs hvw
      obtain ⟨hv, hw, hrejected, hmetrics⟩ := ih (hgrow a' b' hab')
      simp only [summarizeFrom, hs, hs', ↓reduceIte, ha, hb]
      cases result with
      | ok _ => exact ⟨hv, hw, hrejected, .cons hab' hmetrics⟩
      | error e =>
        simp only [hfatal e rfl, Bool.false_eq_true, ↓reduceIte, htag, hrejected]
        exact ⟨hv, hw, trivial, .cons hab' hmetrics⟩
    · have hs' : ¬ b.descriptor.stage = .summary := hab.descriptor ▸ hs
      obtain ⟨hv, hw, hrejected, hmetrics⟩ := ih (hgrow a b hab)
      simp only [summarizeFrom, hs, hs', ↓reduceIte]
      exact ⟨hv, hw, hrejected, .cons hab hmetrics⟩

end

end BenchMetrics
