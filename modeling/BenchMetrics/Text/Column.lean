/-! Columns of a table: a text is filled up with spaces and never cut. -/
namespace BenchMetrics.Text

def spaces (n : Nat) : String := String.ofList (List.replicate n ' ')

/-- The text at the left of a column. -/
def left (width : Nat) (s : String) : String := s ++ spaces (width - s.length)

/-- The text at the right of a column. -/
def right (width : Nat) (s : String) : String := spaces (width - s.length) ++ s

/-- The line under a table head. -/
def rule (width : Nat) : String := String.ofList (List.replicate width '-')

end BenchMetrics.Text
