import BenchMetrics.Exchange.Metric
import BenchMetrics.Run.Consumer
/-! A session feeds the records of a file to an engine. Each line that is not blank holds one
record, and a line that does not is an error. The reader runs ahead of the engine, but only by
as many records as there is room for, so an error of the engine can come before it. -/
namespace BenchMetrics

/-- The content of a file, or why there is none. -/
abbrev FileContent := Except FileFault ByteArray

/-- The text that bytes write in UTF-8. -/
def textOf (bytes : ByteArray) : Except FileFault String :=
  match String.fromUTF8? bytes with
  | some s => .ok s
  | none => .error .notText

def FileContent.text (f : FileContent) : Except FileFault String := f.bind textOf

/-- The lines of a file as bytes; a newline ends the line before it. -/
def byteLines (bytes : List UInt8) : List (List UInt8) :=
  bytes.foldr (fun b lines =>
    if b = 10 then [] :: lines
    else match lines with
      | [] => [[b]]
      | line :: rest => (b :: line) :: rest) []

inductive SessionError where
  | unreadableLine (number : Nat) (fault : FileFault)
  | malformedRecord (number : Nat)
  | refused (error : MetricError)
  deriving DecidableEq

namespace Session

/-- The record on a line; none if the line is blank. -/
def readLine (number : Nat) (line : Except FileFault String) :
    Except SessionError (Option Record) :=
  match line with
  | .error fault => .error (.unreadableLine number fault)
  | .ok text =>
    if Text.blank text then .ok none
    else match Json.decodeText Record.decode text with
      | some r => .ok (some r)
      | none => .error (.malformedRecord number)

/-- The records up to the first line that is an error, and that error. -/
structure Reading where
  records : List Record
  error? : Option SessionError

/-- The reading of lines that are numbered from `number` on. -/
def readFrom (number : Nat) : List (Except FileFault String) → Reading
  | [] => ⟨[], none⟩
  | line :: lines =>
    match readLine number line with
    | .error e => ⟨[], some e⟩
    | .ok r =>
      let rest := readFrom (number + 1) lines
      { rest with records := r.toList ++ rest.records }

/-- The records that the engine is done with when the reader has come to the end of a list. A
record takes room until the engine is done with it, and there is room for one at least. -/
def settled (room : Nat) (records : List Record) : List Record :=
  records.take (records.length - max room 1)

def analyze (e : Engine) (room : Nat) (lines : List (Except FileFault String)) :
    Except SessionError Summary :=
  let reading := readFrom 1 lines
  match reading.error? with
  | none => (e.consume reading.records fun _ => false).mapError .refused
  | some error =>
    match e.processAll (settled room reading.records) with
    | (_, .error err) => .error (.refused err)
    | (_, .ok ()) => .error error

def linesOf (bytes : ByteArray) : List (Except FileFault String) :=
  (byteLines bytes.toList).map fun l => textOf ⟨l.toArray⟩

end Session
end BenchMetrics
