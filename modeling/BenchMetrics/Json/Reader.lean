import BenchMetrics.Json.Lexeme
/-! JSON values from their lexemes, by a machine with a stack of unfinished arrays and
objects. -/
namespace BenchMetrics.Json

/-- An array or object that is not closed yet, with what it holds in reverse. -/
inductive Unfinished where
  | array (items : List Json)
  /-- `sound` tells that every name so far is text, `name` is the one that waits for its
  value. -/
  | object (members : List (String × Json)) (sound : Bool) (name : Option String)

/-- What may come next. -/
inductive Turn where
  | value
  | valueOrClose
  | name
  | nameOrClose
  | colon
  | separator
  | done (value : Json)

structure Build where
  turn : Turn
  stack : List Unfinished

/-- Puts a finished value where it belongs. -/
def Build.place (stack : List Unfinished) (j : Json) : Build :=
  match stack with
  | [] => ⟨.done j, []⟩
  | .array items :: outer => ⟨.separator, .array (j :: items) :: outer⟩
  | .object members sound (some k) :: outer =>
    ⟨.separator, .object ((k, j) :: members) sound none :: outer⟩
  | .object members _ none :: outer => ⟨.separator, .object members false none :: outer⟩

/-- A closed array or object. Past the depth limit, or with a name that is no text, it can
only be skipped. -/
def Unfinished.close (u : Unfinished) (depth : Nat) : Json :=
  match u with
  | .array items => if depth ≤ depthLimit then .arr items.reverse else .unreadable
  | .object members sound _ =>
    if sound && depth ≤ depthLimit then .obj members.reverse else .unreadable

def Build.closeArray (stack : List Unfinished) : Option Build :=
  match stack with
  | .array items :: outer =>
    some (Build.place outer ((Unfinished.array items).close stack.length))
  | _ => none

def Build.closeObject (stack : List Unfinished) : Option Build :=
  match stack with
  | .object members sound name :: outer =>
    some (Build.place outer ((Unfinished.object members sound name).close stack.length))
  | _ => none

def Build.beginValue (stack : List Unfinished) : Lexeme → Option Build
  | .openArray => some ⟨.valueOrClose, .array [] :: stack⟩
  | .openObject => some ⟨.nameOrClose, .object [] true none :: stack⟩
  | .literal j => some (Build.place stack j)
  | .text s => some (Build.place stack ((s.map Json.str).getD .unreadable))
  | _ => none

def Build.beginMember (stack : List Unfinished) : Lexeme → Option Build
  | .text s => match stack with
    | .object members sound _ :: outer => some ⟨.colon, .object members sound s :: outer⟩
    | _ => none
  | _ => none

def Build.step (b : Build) (l : Lexeme) : Option Build :=
  match b.turn with
  | .value => beginValue b.stack l
  | .valueOrClose => match l with
    | .closeArray => closeArray b.stack
    | l => beginValue b.stack l
  | .name => beginMember b.stack l
  | .nameOrClose => match l with
    | .closeObject => closeObject b.stack
    | l => beginMember b.stack l
  | .colon => match l with
    | .colon => some ⟨.value, b.stack⟩
    | _ => none
  | .separator => match l, b.stack with
    | .comma, .array _ :: _ => some ⟨.value, b.stack⟩
    | .comma, .object _ _ _ :: _ => some ⟨.name, b.stack⟩
    | .closeArray, stack => closeArray stack
    | .closeObject, stack => closeObject stack
    | _, _ => none
  | .done _ => none

/-- The value that a text writes; none if the text is not well formed. -/
def read? (s : String) : Option Json :=
  ((lexemes s.toList).bind fun ls => ls.foldlM Build.step ⟨.value, []⟩).bind fun b =>
    match b.turn with
    | .done j => some j
    | _ => none

end BenchMetrics.Json
