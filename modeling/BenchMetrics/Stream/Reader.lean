import BenchMetrics.Stream.Packet
/-! Packets from raw text and back. Lines end at a newline only; a carriage return before it is
white space and falls to trimming. `WellFormed` describes the packets that reading yields. -/
namespace BenchMetrics

namespace Packet

/-- A line whose first visible character is a colon is a comment; otherwise the first colon
parts name and value. -/
def ofLine (line : List Char) : Packet :=
  match Text.trimStart line with
  | ':' :: rest => ⟨.comment, some (String.ofList (Text.trim rest))⟩
  | _ =>
    match Text.cutFirst ':' line with
    | some (name, value) =>
      ⟨.ofText (String.ofList (Text.trim name)), some (String.ofList (Text.trim value))⟩
    | none => ⟨.ofText (String.ofList (Text.trim line)), none⟩

def ofText (raw : String) : List Packet :=
  ((Text.pieces '\n' raw.toList).filter (!Text.allBlank ·)).map ofLine

/-- The line that a packet is written as. -/
def line (p : Packet) : List Char :=
  match p.name, p.value with
  | .comment, some v => ':' :: ' ' :: v.toList
  | name, none => name.text.toList
  | name, some v => name.text.toList ++ ':' :: ' ' :: v.toList

/-- Lines joined by newlines. -/
def render (ps : List Packet) : String :=
  String.ofList (List.intercalate ['\n'] (ps.map line))

/-- Nothing to trim and on one line. -/
def Tidy (s : String) : Prop := Text.trim s.toList = s.toList ∧ '\n' ∉ s.toList

structure WellFormed (p : Packet) : Prop where
  value_tidy : ∀ v ∈ p.value, Tidy v
  comment_value : p.name = .comment → p.value.isSome
  other_name : ∀ n, p.name = .other n →
    n ≠ "" ∧ Tidy n ∧ ':' ∉ n.toList ∧
      Text.lowerAscii n ∉ ["data", "event", "id", "retry"]

end Packet

/-- A raw chunk as it was received. -/
def Chunk.ofText (raw : String) (receivedNs : Int64) : Chunk := ⟨receivedNs, Packet.ofText raw⟩

end BenchMetrics
