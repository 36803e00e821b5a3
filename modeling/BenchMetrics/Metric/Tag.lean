import BenchMetrics.Text.Quoted
/-! Tags name metrics: lower-case snake case, beginning with a letter. -/
namespace BenchMetrics

structure Tag where
  text : String
  deriving DecidableEq, Repr

inductive TagFault where
  | empty
  | badStart
  | badCharacter
  deriving DecidableEq, Repr

def TagFault.message : TagFault → String
  | .empty => "tag is empty"
  | .badStart => "tag must start with a lowercase letter"
  | .badCharacter => "tag may only contain a-z, 0-9 and '_'"

namespace Tag

def allows (c : Char) : Bool := c.isLower || c.isDigit || c == '_'

/-- What is wrong with a tag, if anything is. -/
def fault? (t : Tag) : Option TagFault :=
  match t.text.toList with
  | [] => some .empty
  | c :: cs =>
    if !c.isLower then some .badStart
    else if !(c :: cs).all allows then some .badCharacter
    else none

end Tag
end BenchMetrics
