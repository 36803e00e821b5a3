import BenchMetrics.Command.Invocation
import BenchMetrics.Command.Table
import BenchMetrics.Metric.Standard
import BenchMetrics.Settings.File
/-! What a command line does, given the environment, the files it names, and the identity and
moment of the run. -/
namespace BenchMetrics.Command

/-- One line of reasoning of a complaint. -/
inductive Cause where
  | plain (text : String)
  /-- A text is not JSON of the wanted form. -/
  | malformed (text : String)
  deriving DecidableEq, Repr

def Cause.text : Cause → String
  | .plain text | .malformed text => text

/-- Why a command failed, the outermost reason first. -/
abbrev Complaint := List Cause

/-- The lines of one cause. Only one of several is numbered. -/
def causeLines (number : Option Nat) (text : String) : List String :=
  let ls := (Text.pieces '\n' text.toList).map String.ofList
  let (first, others) := match number with
    | some n => (Text.right 5 (toString n) ++ ": ", "       ")
    | none => ("    ", "    ")
  ls.zipIdx.map fun (l, i) => (if i = 0 then first else others) ++ l

/-- The printed lines of a complaint, with the cause that each group of lines is about. -/
def Complaint.groups : Complaint → List (Option Cause × List String)
  | [] => []
  | head :: causes =>
    let headLines := (Text.pieces '\n' head.text.toList).map String.ofList
    let first := match headLines with
      | [] => []
      | l :: ls => ("Error: " ++ l) :: ls
    let numbered := 1 < causes.length
    (some head, first) ::
      (if causes.isEmpty then [] else [(none, ["", "Caused by:"])]) ++
      causes.zipIdx.map fun (c, i) =>
        (some c, causeLines (if numbered then some i else none) c.text)

def Complaint.text (c : Complaint) : String := unlines (c.groups.flatMap (·.2))

/-- How a command ends. -/
inductive Outcome where
  | printed (output : String)
  /-- The report of an analysis. -/
  | analyzed (report : Report) (json : Bool)
  | failed (complaint : Complaint)
  | stopped (stop : Stop)
  /-- The room asked for between reader and engine is more than there can be. -/
  | noRoom

namespace Outcome

def code : Outcome → Nat
  | .printed _ | .analyzed _ _ => 0
  | .failed _ => 1
  | .stopped .usage => 2
  | .stopped _ => 0
  | .noRoom => 101

def versionText : String := "perf-lens 0.1.0\n"

def usageText : String := unlines [
  "Usage: perf-lens [OPTIONS] <COMMAND>", "", "Commands:",
  "  analyze  Compute metrics over a JSON Lines file of parsed response records",
  "  parse    Parse a raw server-sent event chunk", "  metrics  List registered metrics", "",
  "Options:", "  -v, --verbose", "  -c, --config <CONFIG>", "      --json", "  -h, --help",
  "  -V, --version"]

def output : Outcome → String
  | .printed s => s
  | .analyzed report json => if json then summaryJson report else summaryText report
  | .stopped .version => versionText
  | .stopped .help => usageText
  | _ => ""

def complaint : Outcome → String
  | .failed c => c.text
  | .stopped .usage => usageText
  | .noRoom => "too much room asked for\n"
  | _ => ""

end Outcome

/-- What a command can see of the world. -/
structure World where
  env : String → Option String
  file : String → FileContent
  runId : RunId
  now : Instant

def SettingsError.cause (e : SettingsError) : Cause :=
  match e with
  | .malformedFile _ => .malformed e.message
  | _ => .plain e.message

def settings (w : World) (config : Option String) : Except Complaint Settings :=
  match config with
  | some path =>
    match Settings.ofFile path (w.file path) with
    | .ok s => .ok s
    | .error e => .error [.plain ("Failed to load config: " ++ path), SettingsError.cause e]
  | none =>
    match Settings.ofEnvironment w.env with
    | .ok s => .ok s
    | .error e =>
      .error [.plain "Invalid PERF_LENS_* environment configuration", SettingsError.cause e]

/-- The settings with what the command line says instead. -/
def AnalyzeOptions.override (o : AnalyzeOptions) (s : Settings) : Settings where
  streaming := s.streaming && !o.noStreaming
  policy := o.policy.getD s.policy
  selection := if o.metrics.isEmpty then s.selection else some o.metrics
  displayUnit := o.unit.getD s.displayUnit

def sessionComplaint (e : SessionError) : Complaint :=
  match e with
  | .unreadableLine n fault =>
    [.plain ("Failed to read line " ++ toString n), .plain fault.message]
  | .malformedRecord n =>
    [.plain ("Invalid record on line " ++ toString n),
      .plain "Expected a parsed response record object", .malformed "malformed record"]
  | .refused e => [.plain e.message]

/-- The most records that can wait between reader and engine. -/
def mostRoom : Nat := UInt64.size / 8 - 1

/-- The lines of a file of records. A directory can be opened but has no first line. -/
def recordLines (path : String) (content : FileContent) :
    Except Complaint (List (Except FileFault String)) :=
  match content with
  | .ok bytes => .ok (Session.linesOf bytes)
  | .error .directory => .ok [.error .directory]
  | .error fault =>
    .error [.plain ("Failed to open records file: " ++ path), .plain fault.message]

/-- Settings, engine, room and file are looked at in this order. -/
def analyze (w : World) (config : Option String) (json : Bool) (o : AnalyzeOptions) :
    Except Complaint Outcome := do
  let s ← settings w config
  let s := o.override s
  match s.validate with
  | .error e => .error [.plain "Invalid engine configuration", SettingsError.cause e]
  | .ok () =>
    match Engine.new Standard.catalog s with
    | .error e => .error [.plain "Failed to build metrics engine", .plain e.message]
    | .ok engine =>
      if mostRoom < o.buffer then .ok .noRoom
      else
        let lines ← recordLines o.input (w.file o.input)
        match Session.analyze engine o.buffer lines with
        | .ok summary => .ok (.analyzed ⟨w.runId, w.now, summary⟩ json)
        | .error e => .error (sessionComplaint e)

def parse (w : World) (json : Bool) (input : String) (timestamp : Int64) :
    Except Complaint Outcome :=
  match (w.file input).text with
  | .error fault =>
    .error [.plain ("Failed to read chunk file: " ++ input), .plain fault.message]
  | .ok raw =>
    let chunk := Chunk.ofText raw timestamp
    .ok (.printed (if json then chunkJson chunk else chunkText chunk))

def Invocation.run (w : World) (i : Invocation) : Outcome :=
  let result := match i.action with
    | .analyze o => analyze w i.config i.json o
    | .parse input timestamp => parse w i.json input timestamp
    | .metrics =>
      let ds := Standard.catalog.descriptors
      .ok (.printed (if i.json then listingJson ds else listingText ds))
  match result with
  | .ok outcome => outcome
  | .error complaint => .failed complaint

/-- What a list of words does as a command line. -/
def run (w : World) (words : List String) : Outcome :=
  match Invocation.ofWords w.env words with
  | .ok i => i.run w
  | .error stop => .stopped stop

/-- The files that a command reads. -/
def Invocation.files (i : Invocation) : List String :=
  match i.action with
  | .analyze o => i.config.toList ++ [o.input]
  | .parse input _ => [input]
  | .metrics => []

/-- The files that a command line reads. -/
def files (env : String → Option String) (words : List String) : List String :=
  match Invocation.ofWords env words with
  | .ok i => i.files
  | .error _ => []

/-- The names of the variables that a command line looks at. -/
def envNames : List String :=
  configVariable :: [Setting.streaming, .policy, .selection, .displayUnit].map Setting.envName

end BenchMetrics.Command
