import BenchMetrics.Exchange.Metric
import BenchMetrics.Proofs.Json.Faithful

/-! The exchange format gives back what was written. Every part of a record is written so that it
can be read; two kinds of value have a limit: counts, which are read into 64 bits, and floats, of
which only the finite ones have a text. -/
namespace BenchMetrics
open Json (Place Faithful)

/-- A payload is in the form that reading brings a value into. -/
theorem Payload.ofJson?_json (p : Payload) : ofJson? p.json = some p := by
  have hreadable : p.json.readable = true := Json.readable_of_proper p.proper
  have hnormal : p.json.normal = p.json := Json.normal_of_proper p.proper
  rw [ofJson?]
  simp only [hreadable, hnormal, p.proper]
  rfl

/-! ### Streams -/

theorem FieldName.decode_encode (place : Place) (n : FieldName) :
    decode place n.encode = some n := by
  cases n <;> rfl

theorem FieldName.readable_encode (n : FieldName) : n.encode.readable = true := by
  cases n <;> rfl

theorem Packet.faithful (place : Place) : Faithful encode (decode place) := by
  refine ⟨fun p => ?_, fun _ => nofun⟩
  have hfields : Json.fields fieldNames p.encode = some (.ofMembers _) :=
    Json.fields_obj (by simp)
  rw [decode, hfields]
  simp [Json.Fields.nullable, FieldName.decode_encode, Json.faithful_text.option]

theorem Packet.readable_encode (p : Packet) : p.encode.readable = true := by
  have hvalue : (Json.ofOption .str p.value).readable = true :=
    Json.readable_ofOption fun _ _ => rfl
  simp only [encode, Json.readable, Json.readableMembers, p.name.readable_encode, hvalue,
    Bool.and_self]

theorem Chunk.faithful (place : Place) : Faithful encode (decode place) := by
  refine ⟨fun c => ?_, fun _ => nofun⟩
  have hfields : Json.fields fieldNames c.encode = some (.ofMembers _) :=
    Json.fields_obj (by simp [members])
  rw [decode, hfields]
  simp [members, Json.faithful_int64.read, (Packet.faithful place).list.read]

theorem Chunk.readable_members (c : Chunk) : Json.readableMembers c.members = true := by
  have hpackets : (Json.ofList Packet.encode c.packets).readable = true :=
    Json.readableItems_map fun p _ => p.readable_encode
  simp only [members, Json.readableMembers, Json.ofInt64, Json.readable, hpackets, Bool.and_self]

/-! ### Requests -/

namespace Reply

/-- The kind of a chunk is told apart from the members of the chunk. -/
theorem tagged_stream (c : Chunk) :
    Json.tagged "type" (encode (.stream c)) = some ("stream", c.encode) := by
  have hreadable : (encode (.stream c)).readable = true := by
    simp only [encode, Json.readable, Json.readableMembers, c.readable_members, Bool.and_self]
  simp only [Json.tagged, hreadable]
  rfl

theorem tagged_text (ns : Int64) (body : String) :
    Json.tagged "type" (encode (.text ns body)) =
      some ("text", .obj [("perf_ns", Json.ofInt64 ns), ("text", .str body)]) := rfl

theorem decodeText_members (ns : Int64) (body : String) :
    decodeText (.obj [("perf_ns", Json.ofInt64 ns), ("text", .str body)]) =
      some (.text ns body) := by
  rw [decodeText, Json.fields_obj (by simp)]
  simp [Json.faithful_int64.read, Json.asText]

theorem faithful : Faithful encode decode where
  read
    | .stream c => by rw [decode, tagged_stream]; simp [(Chunk.faithful .tagged).read]
    | .text ns body => by rw [decode, tagged_text]; simp [decodeText_members]
  given r := by cases r <;> nofun

end Reply

theorem Failure.faithful : Faithful encode decode := by
  refine ⟨fun e => ?_, fun _ => nofun⟩
  have hfields : Json.fields fieldNames e.encode = some (.ofMembers _) :=
    Json.fields_obj (by simp)
  rw [decode, hfields]
  simp [Json.Fields.optional, Json.faithful_uint16.option, Json.faithful_text.option, Json.asText]

theorem Request.faithful : Faithful encode decode := by
  refine ⟨fun r => ?_, fun _ => nofun⟩
  have hfields : Json.fields fieldNames r.encode = some (.ofMembers _) :=
    Json.fields_obj (by simp)
  rw [decode, hfields]
  simp [Json.Fields.optional, Payload.ofJson?_json, Json.faithful_int64.read,
    Json.faithful_int64.option, Json.faithful_uint16.option, Reply.faithful.list.read,
    Failure.faithful.option, Json.asBool]

theorem Extract.faithful : Faithful encode decode := by
  refine ⟨fun e => ?_, fun _ => nofun⟩
  have hfields : Json.fields fieldNames e.encode = some (.ofMembers _) :=
    Json.fields_obj (by simp)
  rw [decode, hfields]
  simp [Json.Fields.optional, Json.faithful_int64.read, Json.faithful_uint64.option,
    Json.faithful_text.list.read, Json.faithful_text.dict.read]

theorem Record.faithful : Faithful encode decode := by
  refine ⟨fun r => ?_, fun _ => nofun⟩
  have hfields : Json.fields fieldNames r.encode = some (.ofMembers _) :=
    Json.fields_obj (by simp)
  rw [decode, hfields]
  simp [Json.Fields.optional, Request.faithful.read, Json.faithful_text.option,
    Json.faithful_uint32.option, Json.faithful_uint64.option, Extract.faithful.list.read]

/-! ### Settings -/

theorem TimeUnit.decode_encode (u : TimeUnit) : decode u.encode = some u := by
  cases u <;> rfl

theorem RejectionPolicy.decode_encode (p : RejectionPolicy) : decode p.encode = some p := by
  cases p <;> rfl

theorem Settings.faithful : Faithful encode decode := by
  refine ⟨fun s => ?_, fun _ => nofun⟩
  have hfields : Json.fields fieldNames s.encode = some (.ofMembers _) :=
    Json.fields_obj (by simp)
  rw [decode, hfields]
  simp [RejectionPolicy.decode_encode, TimeUnit.decode_encode, Json.faithful_text.list.option,
    Json.asBool]

/-! ### Failure reports -/

namespace FailureReport

/-- The counts are counts of 64 bits. -/
def Fits (r : FailureReport) : Prop :=
  r.total < UInt64.size ∧ ∀ c ∈ r.entries, c.count < UInt64.size

theorem decodeCount_encodeCount (c : FailureCount) :
    decodeCount (encodeCount c) =
      (Json.asCount (Json.ofCount c.count)).bind fun n => some ⟨c.failure, n⟩ := by
  have hfields : Json.fields ["error", "count"] (encodeCount c) = some (.ofMembers _) :=
    Json.fields_obj (by simp)
  rw [decodeCount, hfields]
  -- each step has a proof of its own: by computation the kernel would count up to the bound
  simp -implicitDefEqProofs [Failure.faithful.read]

theorem decodeCount_encodeCount_iff (c : FailureCount) :
    decodeCount (encodeCount c) = some c ↔ c.count < UInt64.size := by
  have hsame : ∀ n, (⟨c.failure, n⟩ : FailureCount) = c ↔ n = c.count := by
    intro n
    cases c
    simp
  rw [decodeCount_encodeCount, Option.bind_eq_some_iff, ← Json.asCount_ofCount_iff]
  simp only [Option.some_inj, hsame, exists_eq_right]

/-- A report comes back if and only if its counts fit. -/
theorem decode_encode_iff (r : FailureReport) : decode r.encode = some r ↔ r.Fits := by
  have hfields : Json.fields fieldNames r.encode = some (.ofMembers _) :=
    Json.fields_obj (by simp)
  have hread : decode r.encode =
      (Json.asCount (Json.ofCount r.total)).bind fun total =>
        (Json.asList decodeCount (Json.ofList encodeCount r.entries)).bind fun entries =>
          some ⟨total, entries, r.wasCancelled⟩ := by
    rw [decode, hfields]
    simp -implicitDefEqProofs [Json.asBool]
  have hentries : Json.asList decodeCount (Json.ofList encodeCount r.entries) = some r.entries ↔
      ∀ c ∈ r.entries, c.count < UInt64.size := by
    simp only [Json.asList_ofList_iff, decodeCount_encodeCount_iff]
  have hsame : ∀ total entries,
      (⟨total, entries, r.wasCancelled⟩ : FailureReport) = r ↔
        total = r.total ∧ entries = r.entries := by
    intro total entries
    cases r
    simp
  rw [hread, Fits, ← hentries, ← Json.asCount_ofCount_iff, Option.bind_eq_some_iff]
  simp only [Option.bind_eq_some_iff, Option.some_inj, hsame]
  constructor
  · rintro ⟨_, htotal, _, hlist, rfl, rfl⟩
    exact ⟨htotal, hlist⟩
  · rintro ⟨htotal, hlist⟩
    exact ⟨r.total, htotal, r.entries, hlist, rfl, rfl⟩

end FailureReport

/-! ### Values -/

namespace Value

/-- Every number of the value is finite. -/
def Finite (v : Value) : Prop := ∀ x ∈ v.realized, x.toFloat.isFinite = true

theorem asFloat_float_iff (x : Float) :
    Json.asFloat (.float x) = some x ↔ x.isFinite = true := by
  simp only [Json.asFloat]
  split <;> simp_all

theorem isFinite_lowNaN : Sample.lowNaN.toFloat.isFinite = false := by
  decide +kernel

/-- A slot of a series comes back if it is empty or holds a finite number. -/
theorem decode_slot_iff (slot : Option Sample) :
    Json.asOption (fun j => (Json.asFloat j).map .of)
        (Json.ofOption (fun x => .float x.toFloat) slot) = some slot ↔
      ∀ x ∈ slot, x.toFloat.isFinite = true := by
  cases slot with
  | none => simp [Json.ofOption, Json.asOption]
  | some x =>
    have hgiven : Json.float x.toFloat ≠ .null := by
      intro h
      cases h
    rw [Json.ofOption, Json.asOption_of_given hgiven, Option.map_map, Option.map_eq_some_iff]
    simp only [Option.mem_some_iff, forall_eq', Function.comp, Option.some_inj]
    cases x with
    | of x =>
      rw [← asFloat_float_iff]
      simp [Sample.toFloat]
    | lowNaN =>
      rw [isFinite_lowNaN]
      simp

/-- A value comes back if and only if its numbers are finite. -/
theorem decode_encode_iff (v : Value) : decode v.encode = some v ↔ v.Finite := by
  cases v with
  | unset =>
    have hread : decode (encode .unset) = some .unset := rfl
    simp [hread, Finite, realized]
  | scalar x =>
    have hread : decode (encode (.scalar x)) = (Json.asFloat (.float x)).map .scalar := rfl
    rw [hread, Option.map_eq_some_iff]
    simp [Finite, realized, Sample.toFloat, asFloat_float_iff]
  | series slots =>
    have hread : decode (encode (.series slots)) =
        (Json.asList (Json.asOption fun j => (Json.asFloat j).map .of)
          (Json.ofList (Json.ofOption fun x => .float x.toFloat) slots.toList)).map
            fun slots => .series slots.toArray := rfl
    have hsame : ∀ given : List (Option Sample),
        series given.toArray = series slots ↔ given = slots.toList := by
      intro given
      rw [series.injEq, ← Array.toList_inj]
    have hfinite : (series slots).Finite ↔
        ∀ slot ∈ slots.toList, ∀ x ∈ slot, x.toFloat.isFinite = true := by
      simp only [Finite, realized, List.mem_filterMap, id, forall_exists_index, and_imp,
        Option.mem_def]
      exact ⟨fun h slot hslot x hx => h x slot hslot hx, fun h x slot hslot hx => h slot hslot x hx⟩
    rw [hread, Option.map_eq_some_iff]
    simp only [hsame, exists_eq_right, Json.asList_ofList_iff, decode_slot_iff, hfinite]

end Value

/-- What the exchange format writes it reads back: chunks, alone or within a reply, requests,
records and settings always, a failure report as long as its counts fit and a value as long as
its numbers are finite. -/
theorem exchange_decodes_encoded :
    (∀ (place : Place) (c : Chunk), Chunk.decode place c.encode = some c) ∧
    (∀ r : Request, Request.decode r.encode = some r) ∧
    (∀ r : Record, Record.decode r.encode = some r) ∧
    (∀ r : FailureReport, FailureReport.decode r.encode = some r ↔ r.Fits) ∧
    (∀ s : Settings, Settings.decode s.encode = some s) ∧
    (∀ v : Value, Value.decode v.encode = some v ↔ v.Finite) :=
  ⟨fun place => (Chunk.faithful place).read, Request.faithful.read, Record.faithful.read,
    FailureReport.decode_encode_iff, Settings.faithful.read, Value.decode_encode_iff⟩

end BenchMetrics
