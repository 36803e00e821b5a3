import BenchMetrics.Json.Basic
import BenchMetrics.Decimal.Shortest
import BenchMetrics.Text.Quoted
/-! JSON text on several lines, every level indented by two spaces. What cannot be written, a
float that is not finite, is `null`. -/
namespace BenchMetrics.Json

def escape (c : Char) : String :=
  match c with
  | '"' => "\\\""
  | '\\' => "\\\\"
  | '\n' => "\\n"
  | '\r' => "\\r"
  | '\t' => "\\t"
  | '\x08' => "\\b"
  | '\x0c' => "\\f"
  | c =>
    if c.toNat < 0x20 then
      "\\u00" ++ (if c.toNat < 0x10 then "0" else "") ++ Text.hexDigits c.toNat
    else c.toString

def textLiteral (s : String) : String := "\"" ++ String.join (s.toList.map escape) ++ "\""

def newline (level : Nat) : String := "\n" ++ String.ofList (List.replicate (2 * level) ' ')

mutual
def pretty (level : Nat) : Json → String
  | .null => "null"
  | .bool b => if b then "true" else "false"
  | .int i => toString i
  | .float x => (Decimal.shortest? x).getD "null"
  | .str s => textLiteral s
  | .arr [] => "[]"
  | .arr (j :: js) =>
    "[" ++ newline (level + 1) ++ j.pretty (level + 1) ++ prettyItems (level + 1) js ++
      newline level ++ "]"
  | .obj [] => "\x7b\x7d"
  | .obj ((k, j) :: ms) =>
    "\x7b" ++ newline (level + 1) ++ textLiteral k ++ ": " ++ j.pretty (level + 1) ++
      prettyMembers (level + 1) ms ++ newline level ++ "\x7d"
  | .unreadable => "null"
def prettyItems (level : Nat) : List Json → String
  | [] => ""
  | j :: js => "," ++ newline level ++ j.pretty level ++ prettyItems level js
def prettyMembers (level : Nat) : List (String × Json) → String
  | [] => ""
  | (k, j) :: ms =>
    "," ++ newline level ++ textLiteral k ++ ": " ++ j.pretty level ++ prettyMembers level ms
end

end BenchMetrics.Json
