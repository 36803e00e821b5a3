import BenchMetrics.Dict
import BenchMetrics.Width
/-! JSON values. A number is an integer of 64 bits or else a float. `unreadable` stands for a
value whose text is well formed but which nothing can hold: a number past the floats, a
lone surrogate, or nesting past `depthLimit`. It may be skipped, never read. -/
namespace BenchMetrics

inductive Json where
  | null
  | bool (b : Bool)
  | int (i : Int)
  | float (x : Float)
  | str (s : String)
  | arr (items : List Json)
  | obj (members : List (String × Json))
  | unreadable
  deriving Inhabited

namespace Json

/-- How many arrays and objects may stand inside each other. -/
def depthLimit : Nat := 127

/-- The integers that are read as such: those of 64 bits, with or without sign. -/
def holdsInt (i : Int) : Bool := fitsSigned i || fitsBelow UInt64.size i

mutual
/-- Nothing in the value is unreadable. -/
def readable : Json → Bool
  | .arr items => readableItems items
  | .obj members => readableMembers members
  | .unreadable => false
  | _ => true
def readableItems : List Json → Bool
  | [] => true
  | j :: js => j.readable && readableItems js
def readableMembers : List (String × Json) → Bool
  | [] => true
  | (_, j) :: ms => j.readable && readableMembers ms
end

mutual
/-- The members of every object in order of their names, of two members with one name only
the later. -/
def normal : Json → Json
  | .arr items => .arr (normalItems items)
  | .obj members => .obj (normalMembers members)
  | j => j
def normalItems : List Json → List Json
  | [] => []
  | j :: js => j.normal :: normalItems js
def normalMembers : List (String × Json) → List (String × Json)
  | [] => []
  | (k, j) :: ms =>
    let rest := normalMembers ms
    if (rest.lookup k).isSome then rest else Dict.put k j.normal rest
end

mutual
/-- A value that can be written and read again: finite floats, integers of 64 bits, objects in
normal order, nothing unreadable. -/
def proper : Json → Bool
  | .int i => holdsInt i
  | .float x => x.isFinite
  | .arr items => properItems items
  | .obj members => decide ((members.map Prod.fst).Pairwise (· < ·)) && properMembers members
  | .unreadable => false
  | _ => true
def properItems : List Json → Bool
  | [] => true
  | j :: js => j.proper && properItems js
def properMembers : List (String × Json) → Bool
  | [] => true
  | (_, j) :: ms => j.proper && properMembers ms
end

end Json
end BenchMetrics
