import BenchMetrics.Command.Options
/-! Command lines that are understood. -/
namespace BenchMetrics.Command

structure AnalyzeOptions where
  input : String
  unit : Option TimeUnit
  noStreaming : Bool
  /-- The selected tags; nothing is selected if there are none. -/
  metrics : List String
  policy : Option RejectionPolicy
  buffer : Nat
  deriving DecidableEq, Repr

inductive Action where
  | analyze (options : AnalyzeOptions)
  | parse (input : String) (timestamp : Int64)
  | metrics
  deriving DecidableEq, Repr

structure Invocation where
  verbose : Bool
  json : Bool
  config : Option String
  action : Action
  deriving DecidableEq, Repr

/-- The options that every command has. -/
def globalOptions : List Opt := [.verbose, .config, .json, .help]

def analyzeAction (g : Given) : Except Stop Action :=
  match g.words with
  | [input] => .ok (.analyze {
      input := input
      unit := (g.value? .unit).bind fun s => (TimeUnit.parse s).toOption
      noStreaming := g.flags.contains .noStreaming
      metrics := (g.values.filter (·.1 = .metrics)).flatMap fun (_, s) =>
        (Text.pieces ',' s.toList).map String.ofList
      policy := (g.value? .policy).bind fun s => (parsePolicy s).toOption
      buffer := ((g.value? .buffer).bind count?).getD 1024 })
  | _ => .error .usage

def parseAction (g : Given) : Except Stop Action :=
  match g.words with
  | [input] => .ok (.parse input (((g.value? .timestamp).bind integer?).getD 0))
  | _ => .error .usage

/-- A command with its own options and the most words it takes. -/
structure Entry where
  name : String
  options : List Opt
  mostWords : Nat
  action : Given → Except Stop Action

def entries : List Entry := [
  ⟨"analyze", [.unit, .noStreaming, .metrics, .policy, .buffer], 1, analyzeAction⟩,
  ⟨"parse", [.timestamp], 1, parseAction⟩,
  ⟨"metrics", [], 0, fun _ => .ok .metrics⟩]

def Entry.ofName? (name : String) : Option Entry := entries.find? (·.name = name)

/-- The variable that names a settings file. -/
def configVariable : String := "PERF_LENS_CONFIG"

/-- The settings file: as given with the command, before it, or by the environment, which is
asked unless both say it. -/
def configFile (env : String → Option String) (outer inner : Given) :
    Except Stop (Option String) :=
  match inner.value? .config, outer.value? .config, env configVariable with
  | some path, some _, _ => .ok (some path)
  | _, _, some "" => .error .usage
  | some path, none, _ => .ok (some path)
  | none, some path, _ => .ok (some path)
  | none, none, path => .ok path

/-- The command `help` may be followed by the name of one command. -/
def helpStop : List String → Stop
  | [] => .help
  | [name] => if (Entry.ofName? name).isSome || name = "help" then .help else .usage
  | _ => .usage

/-- The items before a command, in two parts. A value that is a word of its own right before the
command is looked at after the words of the command. -/
def outerItems (words : List String) : (List Item × List Item) × List String :=
  let (items, left) := scan (.version :: globalOptions) true words none
  let used := words.take (words.length - left.length)
  let late := if used.getLast?.any isPlain then 1 else 0
  (items.splitAt (items.length - late), left)

def Invocation.ofWords (env : String → Option String) (words : List String) :
    Except Stop Invocation := do
  let ((early, late), left) := outerItems words
  let outer ← early.foldlM (Given.take 0) Given.nothing
  match left with
  | [] => .error .usage
  | "help" :: rest => .error (helpStop rest)
  | name :: rest =>
    match Entry.ofName? name with
    | none => .error .usage
    | some entry =>
      let (items, _) := scan (globalOptions ++ entry.options) false rest none
      let inner ← items.foldlM (Given.take entry.mostWords) Given.nothing
      let action ← entry.action inner
      let outer ← late.foldlM (Given.take 0) outer
      let config ← configFile env outer inner
      let has (o : Opt) := outer.flags.contains o || inner.flags.contains o
      .ok ⟨has .verbose, has .json, config, action⟩

end BenchMetrics.Command
