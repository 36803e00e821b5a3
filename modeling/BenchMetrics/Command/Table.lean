import BenchMetrics.Decimal.Fixed
import BenchMetrics.Exchange.Metric
import BenchMetrics.Json.Printer
import BenchMetrics.Text.Column
/-! What the commands print for a reader. -/
namespace BenchMetrics.Command

def unlines (ls : List String) : String := String.join (ls.map (· ++ "\n"))

/-- A figure with two places. -/
def figureText (x : Option Float) : String := (x.map (Decimal.fixed 2)).getD "N/A"

def summaryRow (name unit : String) (figures : List String) : String :=
  Text.left 34 name ++ " " ++ Text.right 16 unit ++
    String.join (figures.map fun f => " " ++ Text.right 12 f)

def resultRow (r : MetricResult) : String :=
  summaryRow r.header r.unit ([r.figures.avg, r.figures.min, r.figures.max, r.figures.p50,
    r.figures.p90, r.figures.p99].map figureText)

def countsLine (s : Summary) : String :=
  "=> Records: " ++ toString s.processed ++ " processed | " ++ toString s.failed ++
    " errored | " ++ toString s.unusable ++ " invalid | " ++ toString s.rejectionSum ++
    " skipped values"

/-- A heading after an empty line, with lines under it; nothing where there are none. -/
def titled (heading : String) (ls : List String) : List String :=
  if ls.isEmpty then [] else "" :: heading :: ls

def summaryText (r : Report) : String :=
  let s := r.summary
  unlines <|
    ["", "Metrics Summary", "",
      summaryRow "Metric" "Unit" ["Avg", "Min", "Max", "P50", "P90", "P99"], Text.rule 130] ++
    s.results.map resultRow ++ ["", countsLine s] ++
    titled "Skipped values by metric:"
      (s.rejections.entries.map fun (tag, n) => "  " ++ Text.left 34 tag ++ " " ++ toString n) ++
    titled "Request errors:"
      (s.failures.entries.map fun c =>
        "  " ++ Text.right 6 (toString c.count) ++ "x  " ++ c.failure.text) ++
    (if s.wasPartial then ["", "! Run was cancelled; results cover the records seen so far"]
      else []) ++
    ["", "✓ Run " ++ r.runId.text ++ " complete"]

def summaryJson (r : Report) : String := r.encode.pretty 0 ++ "\n"

def packetLine (p : Packet) : String :=
  "  " ++ Text.left 10 p.name.text ++ " " ++ (p.value.map Text.quoted).getD "(none)"

def chunkText (c : Chunk) : String :=
  unlines <|
    ["", "=> " ++ toString c.packets.length ++ " packets @ " ++ toString c.receivedNs.toInt ++ "ns",
      ""] ++
    c.packets.map packetLine ++
    (if c.endsStream then ["", "✓ Stream terminated by " ++ doneMarker] else [])

def chunkJson (c : Chunk) : String := c.encode.pretty 0 ++ "\n"

def listingRow (tag stage unit streaming required : String) : String :=
  Text.left 34 tag ++ " " ++ Text.left 8 stage ++ " " ++ Text.left 16 unit ++ " " ++
    Text.left 10 streaming ++ " " ++ required

def descriptorRow (d : Descriptor) : String :=
  listingRow d.tag.text d.stage.label d.unit.text (if d.streamingOnly then "yes" else "no")
    (MetricError.joinTags ", " d.required)

def listingText (ds : List Descriptor) : String :=
  unlines <|
    ["", "Registered Metrics", "", listingRow "Tag" "Class" "Unit" "Streaming" "Requires",
      Text.rule 110] ++
    ds.map descriptorRow ++ ["", "=> " ++ toString ds.length ++ " metrics"]

def descriptorJson (d : Descriptor) : Json :=
  .obj [("tag", .str d.tag.text), ("header", .str d.header), ("kind", .str d.stage.label),
    ("unit", .str d.unit.text), ("larger_is_better", .bool d.largerIsBetter),
    ("streaming_only", .bool d.streamingOnly),
    ("required", Json.ofList (fun t => .str t.text) d.required)]

def listingJson (ds : List Descriptor) : String :=
  (Json.ofList descriptorJson ds).pretty 0 ++ "\n"

end BenchMetrics.Command
