import BenchMetrics.Proofs.Run.Feeding

/-! What feeding keeps of a metric, and how it fails. Whatever a metric is fed, it stays the same
but for what it holds. One that takes records can refuse a record, and never with a fatal error. -/
namespace BenchMetrics

namespace Cell

/-- A cell with all that it holds taken out. -/
def emptied : Cell → Cell
  | .series compute _ => .series compute #[]
  | .fold compute combine _ => .fold compute combine none
  | .timestamp compute combine _ => .timestamp compute combine none
  | .derived formula _ => .derived formula none
  | .rate source label _ _ => .rate source label 0 #[]

/-- Feeding a cell changes what it holds and nothing else. -/
theorem emptied_update (c : Cell) (owner : Tag) (record : Option Record) (view : View) :
    (c.update owner record view).1.emptied = c.emptied := by
  unfold update
  split
  · split <;> rfl
  · split <;> rfl
  · split <;> rfl
  · split <;> rfl
  · rfl
  · split
    · rfl
    · split <;> rfl
  · rfl

theorem emptied_skip (c : Cell) : c.skip.emptied = c.emptied := by
  cases c <;> rfl

theorem emptied_of_isNew {c : Cell} (h : c.IsNew) : c.emptied = c := by
  cases c with
  | series compute slots => rw [show slots = #[] from h]; rfl
  | fold compute combine current => rw [show current = none from h]; rfl
  | timestamp compute combine current => rw [show current = none from h]; rfl
  | derived formula current => rw [show current = none from h]; rfl
  | rate source label cursor slots => rw [h.1, h.2]; rfl

/-- A cell after a record that it refuses, before it is given an empty slot: the cursor of a rate
moves on whatever comes of it. -/
def moved : Cell → Cell
  | .rate source label cursor slots => .rate source label (cursor + 1) slots
  | c => c

/-- A cell refuses a record because it rejects it, because it is a rate and finds no series, or
because it is derived and takes no records. -/
theorem refused_cases {c : Cell} {owner : Tag} {r : Record} {view : View} {err : MetricError}
    (h : (c.update owner (some r) view).2 = .error err) :
    (c.update owner (some r) view).1 = c.moved ∧
      ((∃ fault, err = .rejected owner fault) ∨
        (∃ source label cursor slots, c = .rate source label cursor slots ∧
          view.series owner source = .error err) ∨
        ∃ formula current, c = .derived formula current) := by
  cases c with
  | series compute slots =>
    cases hr : compute r with
    | ok x => simp [update, hr] at h
    | error fault =>
      simp only [update, hr, Except.error.injEq] at h ⊢
      exact ⟨rfl, Or.inl ⟨fault, h.symm⟩⟩
  | fold compute combine current =>
    cases hr : compute r with
    | ok x => simp [update, hr] at h
    | error fault =>
      simp only [update, hr, Except.error.injEq] at h ⊢
      exact ⟨rfl, Or.inl ⟨fault, h.symm⟩⟩
  | timestamp compute combine current =>
    cases hr : compute r with
    | ok ns => simp [update, hr] at h
    | error fault =>
      simp only [update, hr, Except.error.injEq] at h ⊢
      exact ⟨rfl, Or.inl ⟨fault, h.symm⟩⟩
  | derived formula current => exact ⟨rfl, Or.inr (Or.inr ⟨formula, current, rfl⟩)⟩
  | rate source label cursor slots =>
    -- the cursor moves first, whether or not there is a series and a rate at it
    cases hs : view.series owner source with
    | error missing =>
      simp only [update, hs, Except.error.injEq] at h ⊢
      exact ⟨rfl, Or.inr (Or.inl ⟨source, label, cursor, slots, rfl, h ▸ hs⟩)⟩
    | ok others =>
      cases hr : rateAt source label others cursor with
      | ok x => simp [update, hs, hr] at h
      | error fault =>
        simp only [update, hs, hr, Except.error.injEq] at h ⊢
        exact ⟨rfl, Or.inl ⟨fault, h.symm⟩⟩

/-- What a cell that takes records can say of one: that it is rejected, or that the series is
missing which a rate is taken over. -/
theorem error_of_update {c : Cell} (hc : c.takesRecords) {owner : Tag} {r : Record} {view : View}
    {err : MetricError} (h : (c.update owner (some r) view).2 = .error err) :
    (∃ fault, err = .rejected owner fault) ∨
      ∃ source label cursor slots, c = .rate source label cursor slots ∧
        view.series owner source = .error err := by
  rcases (refused_cases h).2 with hfault | hrate | ⟨formula, current, rfl⟩
  · exact Or.inl hfault
  · exact Or.inr hrate
  · cases hc

/-- Under either policy, a cell that takes records never stops the pass for one. -/
theorem not_fatal_of_update {c : Cell} (hc : c.takesRecords) {owner : Tag} {r : Record}
    {view : View} {err : MetricError} (h : (c.update owner (some r) view).2 = .error err) :
    err.isFatal = false := by
  rcases error_of_update hc h with ⟨fault, rfl⟩ | ⟨source, _, _, _, _, hs⟩
  · rfl
  · -- a view answers with a series or with a missing value, never with a fatal error
    rcases view.series_cases owner source with ⟨hmissing, _⟩ | ⟨slots, hok, _⟩
    · rw [hmissing, Except.error.injEq] at hs
      rw [← hs]
      rfl
    · rw [hok] at hs
      cases hs

/-- A cell that refuses a record takes an empty slot for it if it keeps slots, and else stays as
it is. -/
theorem skip_of_refused {c : Cell} {owner : Tag} {r : Record} {view : View} {err : MetricError}
    (h : (c.update owner (some r) view).2 = .error err) :
    (c.update owner (some r) view).1.skip.slots? = c.slots?.map (·.push none) ∧
      (c.slots? = none → (c.update owner (some r) view).1.skip = c) := by
  rw [(refused_cases h).1]
  cases c with
  | series | rate => exact ⟨rfl, fun hnone => by cases hnone⟩
  | fold | timestamp | derived => exact ⟨rfl, fun _ => rfl⟩

end Cell

/-- One metric's share of a pass: what becomes of it, and the error that it meets. -/
abbrev Part := View → Accumulator → Accumulator × Option MetricError

namespace Accumulator

def emptied (a : Accumulator) : Accumulator := { a with cell := a.cell.emptied }

theorem descriptor_of_emptied {a b : Accumulator} (h : a.emptied = b.emptied) :
    a.descriptor = b.descriptor := by
  have hdescriptor := congrArg descriptor h
  exact hdescriptor

theorem tag_of_emptied {a b : Accumulator} (h : a.emptied = b.emptied) : a.tag = b.tag :=
  congrArg Descriptor.tag (descriptor_of_emptied h)

theorem cell_of_emptied {a b : Accumulator} (h : a.emptied = b.emptied) :
    a.cell.emptied = b.cell.emptied := by
  have hcell := congrArg cell h
  exact hcell

/-- Metrics that are the same but for what they hold. -/
theorem exists_of_map_emptied {ms ns : List Accumulator} (h : ns.map emptied = ms.map emptied)
    {b : Accumulator} (hb : b ∈ ns) : ∃ a ∈ ms, a.emptied = b.emptied := by
  have hmem : b.emptied ∈ ms.map emptied := by
    rw [← h]
    exact List.mem_map_of_mem hb
  exact List.mem_map.mp hmem

theorem map_descriptor_of_emptied {ms ns : List Accumulator}
    (h : ms.map emptied = ns.map emptied) :
    ms.map (·.descriptor) = ns.map (·.descriptor) := by
  have hdescriptors := congrArg (List.map descriptor) h
  rw [List.map_map, List.map_map] at hdescriptors
  exact hdescriptors

theorem map_tag_of_emptied {ms ns : List Accumulator} (h : ms.map emptied = ns.map emptied) :
    ms.map (·.tag) = ns.map (·.tag) := by
  have htags := congrArg (List.map Descriptor.tag) (map_descriptor_of_emptied h)
  rw [List.map_map, List.map_map] at htags
  exact htags

theorem emptied_update (a : Accumulator) (record : Option Record) (view : View) :
    (a.update record view).1.emptied = a.emptied := by
  have hcell := a.cell.emptied_update a.tag record view
  exact congrArg (fun c => ({ a with cell := c } : Accumulator)) hcell

theorem emptied_skip (a : Accumulator) : a.skip.emptied = a.emptied :=
  congrArg (fun c => ({ a with cell := c } : Accumulator)) a.cell.emptied_skip

/-- The part in the pass for a record, which a metric refuses with an error. -/
def offer (r : Record) : Part := fun view a =>
  if a.descriptor.stage.takesRecords then
    match a.update (some r) view with
    | (b, .ok ()) => (b, none)
    | (b, .error err) => (if err.isFatal then b else b.skip, some err)
  else (a, none)

/-- The part in the pass after all records. -/
def conclude : Part := fun view a =>
  if a.descriptor.stage = .summary then
    match a.update none view with
    | (b, .ok ()) => (b, none)
    | (b, .error err) => (b, some err)
  else (a, none)

end Accumulator

/-- A part that changes no more of a metric than what it holds. -/
def Part.Keeps (part : Part) : Prop := ∀ view a, (part view a).1.emptied = a.emptied

theorem Accumulator.offer_keeps (r : Record) : (offer r).Keeps := by
  intro view a
  unfold offer
  split
  · have hupdate := a.emptied_update (some r) view
    rcases hu : a.update (some r) view with ⟨b, err | _⟩
    · rw [hu] at hupdate
      dsimp only
      split
      · exact hupdate
      · exact b.emptied_skip.trans hupdate
    · rw [hu] at hupdate
      exact hupdate
  · rfl

theorem Accumulator.conclude_keeps : conclude.Keeps := by
  intro view a
  unfold conclude
  split
  · have hupdate := a.emptied_update none view
    rcases hu : a.update none view with ⟨b, err | _⟩ <;> rw [hu] at hupdate <;> exact hupdate
  · rfl

theorem Accumulator.skip_of_refused {a b : Accumulator} {r : Record} {view : View}
    {err : MetricError} (h : a.update (some r) view = (b, .error err)) :
    b.skip.cell.slots? = a.cell.slots?.map (·.push none) ∧
      (a.cell.slots? = none → b.skip = a) := by
  rw [update_eq, Prod.mk.injEq] at h
  obtain ⟨rfl, herr⟩ := h
  obtain ⟨hslots, hsame⟩ := Cell.skip_of_refused herr
  exact ⟨hslots, fun hnone => congrArg (Accumulator.mk a.descriptor) (hsame hnone)⟩

/-- What is behind an error in the pass for a record. -/
theorem Accumulator.offer_refused {r : Record} {view : View} {a : Accumulator}
    {err : MetricError} (h : (offer r view a).2 = some err) : a.descriptor.stage.takesRecords ∧
      ∃ b, a.update (some r) view = (b, .error err) ∧
        (offer r view a).1 = if err.isFatal then b else b.skip := by
  unfold offer at h ⊢
  by_cases hs : a.descriptor.stage.takesRecords
  · rw [if_pos hs] at h ⊢
    rcases hu : a.update (some r) view with ⟨b, err' | _⟩
    · rw [hu] at h
      have herr : err' = err := Option.some.inj h
      subst herr
      exact ⟨hs, b, rfl, rfl⟩
    · rw [hu] at h
      cases h
  · rw [if_neg hs] at h
    cases h

end BenchMetrics
