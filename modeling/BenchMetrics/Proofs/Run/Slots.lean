import BenchMetrics.Proofs.Run.Sweep

/-! Where the slots of a run come from. A metric that keeps slots takes one in each call that
reaches it, and a call that is refused ends in the middle of a pass: the metrics up to the one that
refuses the record have a slot for it, those behind have none, and the engine goes on. -/
namespace BenchMetrics
open Accumulator

namespace Cell

/-- The slot that a cell takes for a record. -/
def slotIn (r : Record) (view : View) : Cell → Option Sample
  | .series compute _ => (compute r).toOption.map .of
  | .rate source label cursor _ =>
    (rateOf source label (view.slotAt source cursor)).toOption.map .of
  | _ => none

/-- A cell with one slot more. -/
def push (x : Option Sample) : Cell → Cell
  | .series compute slots => .series compute (slots.push x)
  | .rate source label cursor slots => .rate source label (cursor + 1) (slots.push x)
  | c => c

theorem slots?_push (x : Option Sample) (c : Cell) :
    (c.push x).slots? = c.slots?.map (·.push x) := by
  cases c <;> rfl

theorem isSome_slots?_emptied (c : Cell) : c.emptied.slots?.isSome = c.slots?.isSome := by
  cases c <;> rfl

theorem takesRecords_of_slots? {c : Cell} (h : c.slots?.isSome) : c.takesRecords := by
  cases c with
  | series | rate | fold | timestamp => rfl
  | derived => cases h

/-- A cell that keeps slots takes one for a record, by the update or by the skip after it. -/
theorem update_slotted {c : Cell} (h : c.slots?.isSome) (owner : Tag) (r : Record) (view : View) :
    c.update owner (some r) view = (c.push (c.slotIn r view), .ok ()) ∨
      ∃ b err, c.update owner (some r) view = (b, .error err) ∧
        b.skip = c.push (c.slotIn r view) := by
  cases c with
  | fold | timestamp | derived => cases h
  | series compute slots =>
    cases hr : compute r with
    | ok x =>
      left
      simp only [update, slotIn, push, hr]
      rfl
    | error fault =>
      refine Or.inr ⟨.series compute slots, .rejected owner fault, ?_, ?_⟩
      · simp only [update, hr]
      · simp only [skip, slotIn, push, hr]
        rfl
  | rate source label cursor slots =>
    rcases view.series_cases owner source with ⟨hs, hnone⟩ | ⟨others, hs, hat⟩
    · -- without a series there is no slot to take a rate over
      refine Or.inr ⟨.rate source label (cursor + 1) slots, .missingValue owner source, ?_, ?_⟩
      · simp only [update, hs]
      · simp only [skip, slotIn, push, hnone]
        rfl
    · have hrate : rateAt source label others cursor =
          rateOf source label (view.slotAt source cursor) := by
        rw [rateAt_eq, hat]
      cases hr : rateOf source label (view.slotAt source cursor) with
      | ok x =>
        left
        simp only [update, hs, hrate, slotIn, push, hr]
        rfl
      | error fault =>
        refine Or.inr ⟨.rate source label (cursor + 1) slots, .rejected owner fault, ?_, ?_⟩
        · simp only [update, hs, hrate, hr]
        · simp only [skip, slotIn, push, hr]
          rfl

end Cell

/-- A metric that keeps slots takes one for each record that it is offered. -/
theorem Accumulator.offer_slotted {a : Accumulator} (hs : a.descriptor.stage.takesRecords)
    (hslots : a.cell.slots?.isSome) (r : Record) (view : View) :
    (offer r view a).1 = { a with cell := a.cell.push (a.cell.slotIn r view) } := by
  rw [offer, if_pos hs, update_eq]
  rcases Cell.update_slotted hslots a.tag r view with hu | ⟨b, err, hu, hb⟩
  · rw [hu]
  · have hfatal : err.isFatal = false :=
      Cell.not_fatal_of_update (Cell.takesRecords_of_slots? hslots) (congrArg Prod.snd hu)
    rw [hu]
    simp only [hfatal, Bool.false_eq_true, ↓reduceIte, Accumulator.skip, hb]

namespace Engine

/-- One call of a run: the engine that it finds, and the record. -/
structure Call where
  engine : Engine
  record : Record

/-- The calls of a run, which goes on after errors. -/
def calls (e : Engine) : List Record → List Call
  | [] => []
  | r :: rs => ⟨e, r⟩ :: calls (e.process r).1 rs

theorem calls_snoc (e : Engine) (rs : List Record) (r : Record) :
    e.calls (rs ++ [r]) = e.calls rs ++ [⟨e.after rs, r⟩] := by
  induction rs generalizing e with
  | nil => rfl
  | cons s rs ih =>
    rw [List.cons_append, calls, ih, calls]
    rfl

theorem mem_calls {e : Engine} {rs : List Record} {c : Call} (h : c ∈ e.calls rs) :
    ∃ before, c.engine = e.after before := by
  induction rs generalizing e with
  | nil => cases h
  | cons r rs ih =>
    rcases List.mem_cons.mp h with rfl | h
    · exact ⟨[], rfl⟩
    · obtain ⟨before, hbefore⟩ := ih h
      exact ⟨r :: before, hbefore⟩

/-- The slots of the metric at a place, if it keeps some. -/
def slotsAt (e : Engine) (n : Nat) : Option (Array (Option Sample)) :=
  e.metrics[n]?.bind fun a => a.cell.slots?

/-- The call changes the slots at a place. -/
def Call.fills (c : Call) (n : Nat) : Bool :=
  (c.engine.process c.record).1.slotsAt n ≠ c.engine.slotsAt n

/-- The metric at a place is offered the record of the call. -/
def Call.reaches (c : Call) (n : Nat) : Bool :=
  classify c.record = .fed ∧ (feedFrom c.engine.settings.policy c.record []
    (c.engine.metrics.take n)).stopped = none

/-- The calls from which the slots at a place come, one each. -/
def owners (e : Engine) (rs : List Record) (n : Nat) : List Call :=
  (e.calls rs).filter (·.fills n)

/-- All series have as many slots, and slots at one index come from the same call. -/
def Aligned (e : Engine) (rs : List Record) : Prop :=
  ∀ n m xs ys, (e.after rs).slotsAt n = some xs → (e.after rs).slotsAt m = some ys →
    xs.size = ys.size ∧ e.owners rs n = e.owners rs m

/-- No call ends at or behind one series and in front of another. -/
def Unbroken (e : Engine) (rs : List Record) : Prop :=
  ∀ c ∈ e.calls rs, ∀ p, c.reaches p → ¬ c.reaches (p + 1) →
    ∀ n m, (e.slotsAt n).isSome → (e.slotsAt m).isSome → n ≤ p → m ≤ p

/-- The metrics that keep slots are offered records. -/
def Slotted (e : Engine) : Prop :=
  ∀ a ∈ e.metrics, a.cell.slots?.isSome → a.descriptor.stage.takesRecords

section
variable {e : Engine} {rs : List Record} {r : Record} {n : Nat}

theorem Slotted.after (h : e.Slotted) (rs : List Record) : (e.after rs).Slotted := by
  intro b hb hslots
  obtain ⟨a, ha, hab⟩ := exists_of_map_emptied (map_emptied_after e rs) hb
  rw [← descriptor_of_emptied hab]
  apply h a ha
  rw [← Cell.isSome_slots?_emptied, cell_of_emptied hab, Cell.isSome_slots?_emptied]
  exact hslots

/-- The pass of the call is not stopped in front of the place. -/
theorem Call.reaches_iff {c : Call} : c.reaches n ↔ classify c.record = .fed ∧
    (sweep (c.engine.settings.policy = .abort) (offer c.record) []
      (c.engine.metrics.take n)).stopped = none := by
  rw [← feedFrom_eq_sweep, Call.reaches, decide_eq_true_eq]

/-- What a call finds in front of the metric at a place, when it gets there. -/
def viewAt (e : Engine) (r : Record) (n : Nat) : View :=
  (feedFrom e.settings.policy r [] (e.metrics.take n)).metrics.map exposed

theorem viewAt_eq_sweep (e : Engine) (r : Record) (n : Nat) : e.viewAt r n =
    (sweep (e.settings.policy = .abort) (offer r) [] (e.metrics.take n)).metrics.map exposed := by
  rw [viewAt, feedFrom_eq_sweep]

/-- One call: the metric at a place takes its slot if it is reached, and else stays as it is. -/
theorem getElem?_process (h : e.Slotted) {a : Accumulator} (ha : e.metrics[n]? = some a)
    (hslots : a.cell.slots?.isSome) : (e.process r).1.metrics[n]? =
      some (if Call.reaches ⟨e, r⟩ n then
        { a with cell := a.cell.push (a.cell.slotIn r (e.viewAt r n)) } else a) := by
  have hs := h a (List.mem_of_getElem? ha) hslots
  by_cases hfed : classify r = .fed
  · have hreaches : Call.reaches ⟨e, r⟩ n ↔
        (sweep (e.settings.policy = .abort) (offer r) [] (e.metrics.take n)).stopped = none := by
      rw [Call.reaches_iff, and_iff_right hfed]
    rw [process_of_fed hfed]
    simp only [pass, hreaches]
    rw [viewAt_eq_sweep, feedFrom_eq_sweep, sweep_getElem? (offer_keeps r) [] ha,
      offer_slotted hs hslots, List.nil_append]
  · have hnot : Call.reaches ⟨e, r⟩ n = false := by simp [Call.reaches, hfed]
    rw [(process_of_not_fed hfed).2.1, ha, hnot]
    rfl

theorem slotsAt_process (h : e.Slotted) {slots : Array (Option Sample)}
    (hslots : e.slotsAt n = some slots) (r : Record) : ∃ x, (e.process r).1.slotsAt n =
      some (if Call.reaches ⟨e, r⟩ n then slots.push x else slots) := by
  obtain ⟨a, ha, hcell⟩ := Option.bind_eq_some_iff.mp hslots
  have hstep := getElem?_process h (r := r) ha (by rw [hcell]; rfl)
  refine ⟨a.cell.slotIn r (e.viewAt r n), ?_⟩
  rw [slotsAt, hstep]
  split
  · simp [Cell.slots?_push, hcell]
  · simpa using hcell

/-- A call fills the slots of exactly the metrics that it reaches. -/
theorem fills_eq_reaches (h : e.Slotted) (hslots : (e.slotsAt n).isSome) (r : Record) :
    Call.fills ⟨e, r⟩ n = Call.reaches ⟨e, r⟩ n := by
  obtain ⟨slots, hat⟩ := Option.isSome_iff_exists.mp hslots
  obtain ⟨x, hafter⟩ := slotsAt_process h hat r
  rw [Call.fills, hafter, hat]
  by_cases hreach : Call.reaches ⟨e, r⟩ n
  · -- one slot more is not the same slots
    have hne : slots.push x ≠ slots := by
      intro heq
      have hsizes := congrArg Array.size heq
      rw [Array.size_push] at hsizes
      omega
    simp [hreach, hne]
  · simp [hreach]

/-- A call that gets to a place has got to all places in front of it. -/
theorem Call.reaches_of_le {c : Call} {m : Nat} (hnm : n ≤ m) (h : c.reaches m) : c.reaches n := by
  obtain ⟨hfed, hstopped⟩ := Call.reaches_iff.mp h
  refine Call.reaches_iff.mpr ⟨hfed, ?_⟩
  have hsplit := (List.take_append_drop n (c.engine.metrics.take m)).symm
  rw [List.take_take, Nat.min_eq_left hnm] at hsplit
  rw [hsplit] at hstopped
  rcases hp : sweep (c.engine.settings.policy = .abort) (offer c.record) []
      (c.engine.metrics.take n) with ⟨done, ts, _ | err⟩
  · rfl
  · rw [sweep_append_of_stopped hp] at hstopped
    cases hstopped

/-- A call that gets to one place and not to a later one ends at a place between them. -/
theorem Call.exists_end {c : Call} {m : Nat} (hn : c.reaches n) (hm : ¬ c.reaches m) :
    ∃ p, n ≤ p ∧ p < m ∧ c.reaches p ∧ ¬ c.reaches (p + 1) := by
  induction m with
  | zero => exact absurd (reaches_of_le (Nat.zero_le n) hn) hm
  | succ m ih =>
    by_cases hreach : c.reaches m
    · refine ⟨m, ?_, Nat.lt_succ_self m, hreach, hm⟩
      -- a place behind the end is not reached
      by_contra hlt
      exact hm (reaches_of_le (by omega) hn)
    · obtain ⟨p, hnp, hpm, hp⟩ := ih hreach
      exact ⟨p, hnp, by omega, hp⟩

/-- A call that ends at a place is refused. -/
theorem Call.refused_of_end {c : Call} {p : Nat} (hp : c.reaches p) (hend : ¬ c.reaches (p + 1)) :
    ∃ err, (c.engine.process c.record).2 = .error err := by
  have hfed := (Call.reaches_iff.mp hp).1
  rcases hs : sweep (c.engine.settings.policy = .abort) (offer c.record) []
      (c.engine.metrics.take (p + 1)) with ⟨done, ts, _ | err⟩
  · exact absurd (Call.reaches_iff.mpr ⟨hfed, by rw [hs]⟩) hend
  · -- what stops the front stops the whole pass
    have hwhole := sweep_append_of_stopped hs (c.engine.metrics.drop (p + 1))
    rw [List.take_append_drop] at hwhole
    refine ⟨err, ?_⟩
    rw [process_of_fed hfed, pass, feedFrom_eq_sweep, hwhole]
    rfl

theorem isSome_slotsAt_after (e : Engine) (rs : List Record) (n : Nat) :
    ((e.after rs).slotsAt n).isSome = (e.slotsAt n).isSome := by
  have hempty : ∀ f : Engine, (f.slotsAt n).isSome =
      ((f.metrics.map emptied)[n]?.bind fun a => a.cell.slots?).isSome := by
    intro f
    rw [slotsAt, List.getElem?_map]
    cases f.metrics[n]? with
    | none => rfl
    | some a => exact (Cell.isSome_slots?_emptied a.cell).symm
  rw [hempty, hempty, map_emptied_after]

theorem fills_eq_reaches_of_mem (h : e.Slotted) (hslots : (e.slotsAt n).isSome) {c : Call}
    (hc : c ∈ e.calls rs) : c.fills n = c.reaches n := by
  obtain ⟨before, hbefore⟩ := mem_calls hc
  have hslots' : (c.engine.slotsAt n).isSome := by
    rw [hbefore, isSome_slotsAt_after]
    exact hslots
  exact fills_eq_reaches (hbefore ▸ h.after before) hslots' c.record

theorem owners_snoc (h : e.Slotted) (hslots : (e.slotsAt n).isSome) (rs : List Record)
    (r : Record) : e.owners (rs ++ [r]) n =
      e.owners rs n ++ if Call.reaches ⟨e.after rs, r⟩ n then [⟨e.after rs, r⟩] else [] := by
  have hfills := fills_eq_reaches (h.after rs) (by rw [isSome_slotsAt_after]; exact hslots) r
  rw [owners, calls_snoc, List.filter_append, List.filter_singleton, hfills, Bool.cond_eq_ite]
  rfl

/-- The slots at a place come from as many calls. -/
theorem size_slotsAt (h : e.Slotted) (hnew : e.slotsAt n = some #[]) (rs : List Record) :
    ∃ slots, (e.after rs).slotsAt n = some slots ∧ slots.size = (e.owners rs n).length := by
  -- a call more adds a slot and its owner, or neither
  induction rs using List.reverseRecOn with
  | nil => exact ⟨#[], hnew, rfl⟩
  | append_singleton rs r ih =>
    obtain ⟨slots, hslots, hsize⟩ := ih
    obtain ⟨x, hstep⟩ := slotsAt_process (h.after rs) hslots r
    rw [after_snoc, hstep, owners_snoc h (by rw [hnew]; rfl)]
    refine ⟨_, rfl, ?_⟩
    split
    · rw [Array.size_push, hsize, List.length_append, List.length_singleton]
    · rw [List.append_nil, hsize]

theorem size_owners (h : e.Slotted)
    (hnew : ∀ n slots, e.slotsAt n = some slots → slots = #[]) {slots : Array (Option Sample)}
    (hslots : (e.after rs).slotsAt n = some slots) : slots.size = (e.owners rs n).length := by
  have hsome : (e.slotsAt n).isSome := by
    rw [← isSome_slotsAt_after e rs, hslots]
    rfl
  obtain ⟨start, hstart⟩ := Option.isSome_iff_exists.mp hsome
  obtain ⟨slots', hslots', hsize⟩ := size_slotsAt h (hnew n start hstart ▸ hstart) rs
  rw [hslots, Option.some.injEq] at hslots'
  rw [hslots', hsize]

/-- The slots of a series are what the records of their calls are worth. -/
theorem series_owned (h : e.Slotted) {a : Accumulator} (ha : e.metrics[n]? = some a)
    {compute : Record → Except Fault Float} (hcell : a.cell = .series compute #[])
    (rs : List Record) : (e.after rs).metrics[n]? = some ⟨a.descriptor, .series compute
      ((e.owners rs n).map fun c => (compute c.record).toOption.map Sample.of).toArray⟩ := by
  have hnew : (e.slotsAt n).isSome := by
    rw [slotsAt, ha, Option.bind_some, hcell]
    rfl
  induction rs using List.reverseRecOn with
  | nil =>
    rw [show e.after [] = e from rfl, ha, show e.owners [] n = [] from rfl, List.map_nil, ← hcell]
  | append_singleton rs r ih =>
    rw [after_snoc, getElem?_process (h.after rs) ih rfl, owners_snoc h hnew]
    split
    · simp only [Cell.push, Cell.slotIn, List.map_append, List.map_cons, List.map_nil,
        List.push_toArray]
    · simp

/-- As long as no call ends between series, one that reaches a series reaches all. -/
theorem Unbroken.reaches (h : e.Unbroken rs) {c : Call} (hc : c ∈ e.calls rs) {m : Nat}
    (hn : (e.slotsAt n).isSome) (hm : (e.slotsAt m).isSome) (hreach : c.reaches n) :
    c.reaches m := by
  by_contra hnot
  obtain ⟨p, hnp, hpm, hp, hend⟩ := Call.exists_end hreach hnot
  have hmp := h c hc p hp hend n m hn hm hnp
  omega

theorem unbroken_of_accepted (h : ∀ c ∈ e.calls rs, (c.engine.process c.record).2 = .ok ()) :
    e.Unbroken rs := by
  intro c hc p hp hend
  obtain ⟨err, herr⟩ := Call.refused_of_end hp hend
  rw [h c hc] at herr
  cases herr

/-- It does no harm that calls are refused behind the last series: a run is unbroken if every record
that is fed is offered to that one. -/
theorem unbroken_of_reaches {last : Nat} (hlast : ∀ m, (e.slotsAt m).isSome → m ≤ last)
    (h : ∀ c ∈ e.calls rs, c.reaches 0 → c.reaches last) : e.Unbroken rs := by
  intro c hc p hp hend n m _ hm _
  by_contra hpm
  have hfed : c.reaches 0 := Call.reaches_of_le (Nat.zero_le p) hp
  have hle : p + 1 ≤ last := by
    have := hlast m hm
    omega
  exact hend (Call.reaches_of_le hle (h c hc hfed))

/-- The exact condition: series are in step as long as no call ends between them. -/
theorem aligned_iff (h : e.Slotted) (hnew : ∀ n slots, e.slotsAt n = some slots → slots = #[])
    (rs : List Record) : e.Aligned rs ↔ e.Unbroken rs := by
  constructor
  · intro haligned c hc p hp hend n m hn hm hnp
    by_contra hpm
    obtain ⟨xs, hxs⟩ : ∃ xs, (e.after rs).slotsAt n = some xs :=
      Option.isSome_iff_exists.mp (by rw [isSome_slotsAt_after]; exact hn)
    obtain ⟨ys, hys⟩ : ∃ ys, (e.after rs).slotsAt m = some ys :=
      Option.isSome_iff_exists.mp (by rw [isSome_slotsAt_after]; exact hm)
    -- the call fills the first series, so the other as well, which it does not reach
    have hfills : c.fills n := by
      rw [fills_eq_reaches_of_mem h hn hc]
      exact Call.reaches_of_le hnp hp
    have hmem : c ∈ e.owners rs n := List.mem_filter.mpr ⟨hc, hfills⟩
    rw [(haligned n m xs ys hxs hys).2] at hmem
    have hfills' : c.fills m := (List.mem_filter.mp hmem).2
    rw [fills_eq_reaches_of_mem h hm hc] at hfills'
    exact hend (Call.reaches_of_le (by omega) hfills')
  · intro hunbroken n m xs ys hxs hys
    have hslots : ∀ k zs, (e.after rs).slotsAt k = some zs → (e.slotsAt k).isSome := by
      intro k zs hzs
      rw [← isSome_slotsAt_after e rs, hzs]
      rfl
    have hn := hslots n xs hxs
    have hm := hslots m ys hys
    have howners : e.owners rs n = e.owners rs m := by
      apply List.filter_congr
      intro c hc
      rw [fills_eq_reaches_of_mem h hn hc, fills_eq_reaches_of_mem h hm hc, Bool.eq_iff_iff]
      exact ⟨hunbroken.reaches hc hn hm, hunbroken.reaches hc hm hn⟩
    have hsize := size_owners h hnew hxs
    have hsize' := size_owners h hnew hys
    exact ⟨by rw [hsize, hsize', howners], howners⟩

theorem map_tag_viewAt (e : Engine) (r : Record) (m : Nat) :
    (e.viewAt r m).map (·.tag) = (e.metrics.take m).map (·.tag) := by
  have hshows : (Exposed.tag ∘ exposed : Accumulator → Tag) = Accumulator.tag := rfl
  rw [viewAt_eq_sweep, List.map_map, hshows]
  exact map_tag_of_emptied (map_emptied_sweep (offer_keeps r) _ [] _)

/-- A metric that is reached, as those behind it see it. -/
theorem getElem?_viewAt (h : e.Slotted) {m : Nat} (hnm : n < m) {a : Accumulator}
    (ha : e.metrics[n]? = some a) (hslots : a.cell.slots?.isSome)
    (hreach : Call.reaches ⟨e, r⟩ n) : (e.viewAt r m)[n]? =
      some (exposed { a with cell := a.cell.push (a.cell.slotIn r (e.viewAt r n)) }) := by
  have hs := h a (List.mem_of_getElem? ha) hslots
  have htake : (e.metrics.take m)[n]? = some a := by
    rw [List.getElem?_take_of_lt hnm, ha]
  have hstopped := (Call.reaches_iff.mp hreach).2
  rw [viewAt_eq_sweep, List.getElem?_map, sweep_getElem? (offer_keeps r) [] htake,
    List.take_take, Nat.min_eq_left (Nat.le_of_lt hnm), if_pos hstopped, offer_slotted hs hslots,
    List.nil_append, ← viewAt_eq_sweep]
  rfl

/-- Metrics in front show the series at an earlier place as the call leaves it. -/
theorem slotAt_viewAt (h : e.Slotted) {m : Nat} (hnm : n < m) {a : Accumulator}
    (ha : e.metrics[n]? = some a) (hslots : a.cell.slots?.isSome) {t : Tag} (ht : a.tag = t)
    (hfirst : t ∉ (e.metrics.take n).map (·.tag)) (hreach : Call.reaches ⟨e, r⟩ m)
    {slots : Array (Option Sample)} (hafter : (e.process r).1.slotsAt n = some slots) (k : Nat) :
    (e.viewAt r m).slotAt t k = slots[k]?.join := by
  have hearlier : Call.reaches ⟨e, r⟩ n := Call.reaches_of_le (Nat.le_of_lt hnm) hreach
  have hshown := getElem?_viewAt h hnm ha hslots hearlier
  rw [slotsAt, getElem?_process h ha hslots, if_pos hearlier, Option.bind_some] at hafter
  generalize a.cell.push (a.cell.slotIn r (e.viewAt r n)) = cell at hshown hafter
  have hfound : (e.viewAt r m).find? t = some (exposed { a with cell := cell }) := by
    subst ht
    -- none of the metrics before the place has this tag
    obtain ⟨hlt, hget⟩ := List.getElem?_eq_some_iff.mp hshown
    rw [← List.take_append_drop n (e.viewAt r m), List.drop_eq_getElem_cons hlt, hget]
    apply View.find?_of_first
    rw [List.map_take, map_tag_viewAt, List.map_take, List.take_take,
      Nat.min_eq_left (Nat.le_of_lt hnm), ← List.map_take]
    exact hfirst
  rw [View.slotAt, hfound, Option.bind_some, slotAt_exposed, hafter]
  rfl

end
end Engine

end BenchMetrics
