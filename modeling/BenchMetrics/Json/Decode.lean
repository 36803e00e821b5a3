import BenchMetrics.Json.Basic
/-! Reading typed values out of JSON values. A record is an object, whose unknown members are
skipped, or an array of its fields in their order. -/
namespace BenchMetrics.Json

def asBool : Json → Option Bool
  | .bool b => some b
  | _ => none

def asText : Json → Option String
  | .str s => some s
  | _ => none

/-- An integer that fits. -/
def asInt (fits : Int → Bool) : Json → Option Int
  | .int i => if fits i then some i else none
  | _ => none

def asNatBelow (bound : Nat) (j : Json) : Option Nat := (asInt (fitsBelow bound) j).map Int.toNat

def asInt64 (j : Json) : Option Int64 := (asInt fitsSigned j).map Int64.ofInt
def asUInt64 (j : Json) : Option UInt64 := (asNatBelow UInt64.size j).map UInt64.ofNat
def asUInt32 (j : Json) : Option UInt32 := (asNatBelow UInt32.size j).map UInt32.ofNat
def asUInt16 (j : Json) : Option UInt16 := (asNatBelow UInt16.size j).map UInt16.ofNat

/-- A count of 64 bits. -/
def asCount (j : Json) : Option Nat := asNatBelow UInt64.size j

/-- An integer counts as the float nearest to it. -/
def asFloat : Json → Option Float
  | .int i => some (Float.ofInt i)
  | .float x => if x.isFinite then some x else none
  | _ => none

section
variable {α : Type}

def asList (item : Json → Option α) : Json → Option (List α)
  | .arr items => items.mapM item
  | _ => none

/-- `null` stands for no value. -/
def asOption (value : Json → Option α) : Json → Option (Option α)
  | .null => some none
  | j => (value j).map some

def asDict (value : Json → Option α) : Json → Option (Dict α)
  | .obj members =>
    (members.mapM fun m : String × Json => (value m.2).map fun v => (m.1, v)).map Dict.ofList
  | _ => none

/-- The parts of a record that are given, by the names of its fields. -/
structure Fields where
  get? : String → Option Json
  /-- The record was written as an array. -/
  positional : Bool

/-- A known field may be given once; an array may not be longer than the list of fields. -/
def fields (names : List String) : Json → Option Fields
  | .obj members =>
    if names.all fun n => (members.filter (·.1 == n)).length ≤ 1 then
      some ⟨fun n => members.lookup n, false⟩
    else none
  | .arr items =>
    if items.length ≤ names.length then some ⟨fun n => items[names.idxOf n]?, true⟩ else none
  | _ => none

/-- A field that has to be given. -/
def Fields.required (f : Fields) (name : String) (value : Json → Option α) : Option α :=
  (f.get? name).bind value

/-- A field that may be left out. -/
def Fields.withDefault (f : Fields) (name : String) (value : Json → Option α) (default : α) :
    Option α :=
  match f.get? name with
  | none => some default
  | some j => value j

/-- An optional field that may be left out. -/
def Fields.optional (f : Fields) (name : String) (value : Json → Option α) :
    Option (Option α) :=
  f.withDefault name (asOption value) none

/-- An optional field that may be left out of an object only. -/
def Fields.nullable (f : Fields) (name : String) (value : Json → Option α) :
    Option (Option α) :=
  match f.get? name with
  | none => if f.positional then none else some none
  | some j => asOption value j

/-- A choice is its name, or an object with the name and what belongs to it. -/
def choice : Json → Option (String × Option Json)
  | .str s => some (s, none)
  | .obj [(s, j)] => some (s, some j)
  | _ => none

end

/-- Where a value stands: by itself, or inside a tagged object, which is taken as a whole
before it is read. -/
inductive Place where
  | plain
  | tagged
  deriving DecidableEq

/-- What belongs to a choice without content: nothing, `null`, or inside a tagged object an
empty object. -/
def noContent (place : Place) : Option Json → Bool
  | none => true
  | some .null => true
  | some (.obj []) => place = .tagged
  | some _ => false

/-- One of several names without content. -/
def oneOf {α : Type} (place : Place) (value : String → Option α) (j : Json) : Option α :=
  (choice j).bind fun (s, content) => if noContent place content then value s else none

/-- A tagged object gives the name of its kind under `tag`, or first in an array; the rest is
the content. Every part of it has to be readable. -/
def tagged (tag : String) (j : Json) : Option (String × Json) :=
  if !j.readable then none
  else match j with
    | .obj members =>
      match members.filter (·.1 == tag) with
      | [(_, .str s)] => some (s, .obj (members.filter (·.1 != tag)))
      | _ => none
    | .arr (.str s :: items) => some (s, .arr items)
    | _ => none

def ofOption {α : Type} (value : α → Json) : Option α → Json
  | none => .null
  | some a => value a

def ofText (s : String) : Json := .str s
def ofInt64 (i : Int64) : Json := .int i.toInt
def ofUInt64 (n : UInt64) : Json := .int n.toNat
def ofUInt32 (n : UInt32) : Json := .int n.toNat
def ofUInt16 (n : UInt16) : Json := .int n.toNat
def ofCount (n : Nat) : Json := .int n

def ofList {α : Type} (item : α → Json) (as : List α) : Json := .arr (as.map item)

def ofDict {α : Type} (value : α → Json) (d : Dict α) : Json :=
  .obj (d.entries.map fun (k, v) => (k, value v))

end BenchMetrics.Json
