import BenchMetrics.Json.Decode
import BenchMetrics.Proofs.Tally.Dict

/-! Reading what was written. A way to write values is faithful to a way to read them if every value
comes back; it stays so under options, lists and maps, and in the fields of a record. A value that
can be written at all is readable and in normal form already. -/
namespace BenchMetrics

namespace Json

/-- What is written comes back, and is never `null`, which stands for no value. -/
structure Faithful {α : Type} (encode : α → Json) (decode : Json → Option α) : Prop where
  read : ∀ a, decode (encode a) = some a
  given : ∀ a, encode a ≠ .null

theorem faithful_text : Faithful .str asText := ⟨fun _ => rfl, fun _ => nofun⟩

theorem faithful_int64 : Faithful ofInt64 asInt64 := by
  refine ⟨fun i => ?_, fun _ => nofun⟩
  rw [asInt64, ofInt64, asInt, if_pos (fitsSigned_toInt i), Option.map_some, Int64.ofInt_toInt]

theorem asNatBelow_int {bound n : Nat} (h : n < bound) : asNatBelow bound (.int n) = some n := by
  have hfits : fitsBelow bound n = true := by
    simp only [fitsBelow, Bool.and_eq_true, decide_eq_true_eq]
    omega
  rw [asNatBelow, asInt, if_pos hfits, Option.map_some, Int.toNat_natCast]

theorem faithful_uint64 : Faithful ofUInt64 asUInt64 := by
  refine ⟨fun n => ?_, fun _ => nofun⟩
  rw [asUInt64, ofUInt64, asNatBelow_int n.toNat_lt_size, Option.map_some, UInt64.ofNat_toNat]

theorem faithful_uint32 : Faithful ofUInt32 asUInt32 := by
  refine ⟨fun n => ?_, fun _ => nofun⟩
  rw [asUInt32, ofUInt32, asNatBelow_int n.toNat_lt_size, Option.map_some, UInt32.ofNat_toNat]

theorem faithful_uint16 : Faithful ofUInt16 asUInt16 := by
  refine ⟨fun n => ?_, fun _ => nofun⟩
  rw [asUInt16, ofUInt16, asNatBelow_int n.toNat_lt_size, Option.map_some, UInt16.ofNat_toNat]

/-- A count is read back as far as 64 bits hold it. -/
theorem asCount_ofCount_iff (n : Nat) : asCount (ofCount n) = some n ↔ n < UInt64.size := by
  refine ⟨fun h => ?_, asNatBelow_int⟩
  by_cases hfits : fitsBelow UInt64.size n = true
  · simp only [fitsBelow, Bool.and_eq_true, decide_eq_true_eq] at hfits
    omega
  · rw [asCount, ofCount, asNatBelow, asInt, if_neg hfits] at h
    cases h

section
variable {α β : Type} {encode : α → Json} {decode : Json → Option α}

theorem asOption_of_given {j : Json} (h : j ≠ .null) : asOption decode j = (decode j).map some := by
  cases j with
  | null => exact absurd rfl h
  | bool | int | float | str | arr | obj | unreadable => rfl

theorem Faithful.option (h : Faithful encode decode) (o : Option α) :
    asOption decode (ofOption encode o) = some o := by
  cases o with
  | none => rfl
  | some a => rw [ofOption, asOption_of_given (h.given a), h.read, Option.map_some]

theorem mapM_map_iff {write : α → β} {read : β → Option α} {as : List α} :
    (as.map write).mapM read = some as ↔ ∀ a ∈ as, read (write a) = some a := by
  induction as with
  | nil => simp
  | cons a as ih =>
    rw [List.map_cons, List.mapM_cons, List.forall_mem_cons, ← ih]
    cases read (write a) with
    | none => simp
    | some b => cases (as.map write).mapM read <;> simp

/-- A list comes back if each of its items does. -/
theorem asList_ofList_iff (as : List α) :
    asList decode (ofList encode as) = some as ↔ ∀ a ∈ as, decode (encode a) = some a :=
  mapM_map_iff

theorem Faithful.list (h : Faithful encode decode) :
    Faithful (ofList encode) (asList decode) :=
  ⟨fun as => (asList_ofList_iff as).mpr fun a _ => h.read a, fun _ => nofun⟩

theorem Faithful.dict (h : Faithful encode decode) : Faithful (ofDict encode) (asDict decode) := by
  refine ⟨fun d => ?_, fun _ => nofun⟩
  have hentries : (d.entries.map fun e => (e.1, encode e.2)).mapM
      (fun m : String × Json => (decode m.2).map fun a => (m.1, a)) = some d.entries := by
    apply mapM_map_iff.mpr
    intro e _
    rw [h.read, Option.map_some]
  simp only [asDict, ofDict]
  rw [hentries, Option.map_some, Dict.ofList_entries]

end

/-- The fields of an object with these members. -/
def Fields.ofMembers (members : List (String × Json)) : Fields :=
  ⟨fun n => members.lookup n, false⟩

/-- An object with each field once gives its fields. -/
theorem fields_obj {names : List String} {members : List (String × Json)}
    (h : (members.map Prod.fst).Nodup) :
    fields names (.obj members) = some (.ofMembers members) := by
  have honce : ∀ n, (members.filter (·.1 == n)).length ≤ 1 := by
    intro n
    have hcount : (members.filter (·.1 == n)).length = (members.map Prod.fst).count n := by
      rw [← List.countP_eq_length_filter, List.count, List.countP_map]
      rfl
    rw [hcount]
    exact List.nodup_iff_count_le_one.mp h n
  have hall : names.all (fun n => (members.filter (·.1 == n)).length ≤ 1) = true := by
    simp [honce]
  simp only [fields]
  rw [if_pos hall, Fields.ofMembers]

namespace Fields
variable {α : Type} {name key : String} {j : Json} {members : List (String × Json)}
  {decode : Json → Option α} {default : α}

@[simp]
theorem get?_head : (ofMembers ((name, j) :: members)).get? name = some j := by
  simp only [ofMembers, List.lookup_cons_self]

@[simp]
theorem get?_tail (h : name ≠ key) :
    (ofMembers ((key, j) :: members)).get? name = (ofMembers members).get? name := by
  have hother : (name == key) = false := beq_eq_false_iff_ne.mpr h
  simp only [ofMembers, List.lookup_cons, hother]

/- How a member is read is no part of where it is found: reading stays folded here, since what it
computes with may be too large to unfold. -/

@[simp]
theorem required_head : (ofMembers ((name, j) :: members)).required name decode = decode j := by
  rw [required, get?_head, Option.bind_some]

@[simp]
theorem required_tail (h : name ≠ key) :
    (ofMembers ((key, j) :: members)).required name decode =
      (ofMembers members).required name decode := by
  rw [required, required, get?_tail h]

@[simp]
theorem withDefault_head :
    (ofMembers ((name, j) :: members)).withDefault name decode default = decode j := by
  rw [withDefault, get?_head]

@[simp]
theorem withDefault_tail (h : name ≠ key) :
    (ofMembers ((key, j) :: members)).withDefault name decode default =
      (ofMembers members).withDefault name decode default := by
  rw [withDefault, withDefault, get?_tail h]

end Fields

theorem readableItems_map {α : Type} {encode : α → Json} {as : List α}
    (h : ∀ a ∈ as, (encode a).readable = true) : readableItems (as.map encode) = true := by
  induction as with
  | nil => rfl
  | cons a as ih =>
    rw [List.map_cons, readableItems, h a (.head _), ih fun b hb => h b (.tail _ hb)]
    rfl

theorem readable_ofOption {α : Type} {encode : α → Json} {o : Option α}
    (h : ∀ a ∈ o, (encode a).readable = true) : (ofOption encode o).readable = true := by
  cases o with
  | none => rfl
  | some a => exact h a rfl

mutual
theorem readable_of_proper : ∀ {j : Json}, j.proper = true → j.readable = true
  | .arr items, h => @readableItems_of_proper items h
  | .obj members, h => by
    simp only [proper, Bool.and_eq_true] at h
    exact readableMembers_of_proper h.2
  | .null, _ | .bool _, _ | .int _, _ | .float _, _ | .str _, _ => rfl
theorem readableItems_of_proper : ∀ {items : List Json}, properItems items = true →
    readableItems items = true
  | [], _ => rfl
  | j :: js, h => by
    simp only [properItems, Bool.and_eq_true] at h
    simp only [readableItems, readable_of_proper h.1, readableItems_of_proper h.2, Bool.and_self]
theorem readableMembers_of_proper : ∀ {members : List (String × Json)},
    properMembers members = true → readableMembers members = true
  | [], _ => rfl
  | (_, j) :: ms, h => by
    simp only [properMembers, Bool.and_eq_true] at h
    simp only [readableMembers, readable_of_proper h.1, readableMembers_of_proper h.2,
      Bool.and_self]
end

mutual
theorem normal_of_proper : ∀ {j : Json}, j.proper = true → j.normal = j
  | .arr items, h => congrArg Json.arr (@normalItems_of_proper items h)
  | .obj members, h => by
    simp only [proper, Bool.and_eq_true, decide_eq_true_eq] at h
    exact congrArg Json.obj (normalMembers_of_proper h.1 h.2)
  | .null, _ | .bool _, _ | .int _, _ | .float _, _ | .str _, _ => rfl
theorem normalItems_of_proper : ∀ {items : List Json}, properItems items = true →
    normalItems items = items
  | [], _ => rfl
  | j :: js, h => by
    simp only [properItems, Bool.and_eq_true] at h
    rw [normalItems, normal_of_proper h.1, normalItems_of_proper h.2]
theorem normalMembers_of_proper : ∀ {members : List (String × Json)},
    (members.map Prod.fst).Pairwise (· < ·) → properMembers members = true →
      normalMembers members = members
  | [], _, _ => rfl
  | (k, j) :: ms, hsorted, h => by
    rw [List.map_cons, List.pairwise_cons] at hsorted
    simp only [properMembers, Bool.and_eq_true] at h
    -- the first name is below all others: nothing replaces it, and it stays in front
    have hnew : ¬ (ms.lookup k).isSome := by
      rw [Dict.isSome_lookup]
      intro hmem
      exact String.lt_irrefl k (hsorted.1 k hmem)
    rw [normalMembers, normalMembers_of_proper hsorted.2 h.2, normal_of_proper h.1]
    simp only [hnew]
    exact Dict.put_of_first hsorted.1
end

end Json
end BenchMetrics
