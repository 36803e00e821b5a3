import BenchMetrics.Settings.Environment
import BenchMetrics.Width
/-! The words of a command line: options with long and short names, their values, and the other
words. An option and its value may be one word or two; short options may share a word. -/
namespace BenchMetrics.Command

inductive Opt where
  | verbose
  | config
  | json
  | unit
  | noStreaming
  | metrics
  | policy
  | buffer
  | timestamp
  | help
  | version
  deriving DecidableEq, Repr

namespace Opt

def long : Opt → String
  | .verbose => "verbose"
  | .config => "config"
  | .json => "json"
  | .unit => "unit"
  | .noStreaming => "no-streaming"
  | .metrics => "metrics"
  | .policy => "failure-policy"
  | .buffer => "buffer"
  | .timestamp => "timestamp"
  | .help => "help"
  | .version => "version"

def short? : Opt → Option Char
  | .verbose => some 'v'
  | .config => some 'c'
  | .unit => some 'u'
  | .metrics => some 'm'
  | .timestamp => some 't'
  | .help => some 'h'
  | .version => some 'V'
  | _ => none

def takesValue : Opt → Bool
  | .config | .unit | .metrics | .policy | .buffer | .timestamp => true
  | _ => false

def repeats (o : Opt) : Bool := o = .metrics

end Opt

/-- Decimal digits that write a number. -/
def digits? (cs : List Char) : Option Nat :=
  if cs.isEmpty || !cs.all Char.isDigit then none
  else some (cs.foldl (fun n c => 10 * n + (c.toNat - '0'.toNat)) 0)

/-- A count of 64 bits, with a plus sign or without. -/
def count? (s : String) : Option Nat :=
  let value := match s.toList with
    | '+' :: r => digits? r
    | r => digits? r
  value.filter (· < UInt64.size)

/-- A number of 64 bits with its sign. -/
def integer? (s : String) : Option Int64 :=
  let value : Option Int := match s.toList with
    | '-' :: r => (digits? r).map fun n => -(n : Int)
    | '+' :: r => (digits? r).map Int.ofNat
    | r => (digits? r).map Int.ofNat
  (value.filter fitsSigned).map Int64.ofInt

/-- A value can be read as what the option needs. -/
def Opt.accepts (o : Opt) (s : String) : Bool :=
  match o with
  | .config => s ≠ ""
  | .unit => (TimeUnit.parse s).isOk
  | .policy => (parsePolicy s).isOk
  | .buffer => (count? s).isSome
  | .timestamp => (integer? s).isSome
  | _ => true

/-- What a word of the command line turns out to be. -/
inductive Item where
  | flag (o : Opt)
  | value (o : Opt) (s : String)
  | word (s : String)
  /-- An unknown option, a value for an option that takes none, or none for one that does. -/
  | misuse
  deriving DecidableEq, Repr

/-- A word that may be the value of an option before it. A single hyphen is such a word. -/
def isPlain (s : String) : Bool := s = "-" || s.toList.head? ≠ some '-'

/-- The items of a word of short options. The last may be an option whose value is to come. -/
def cluster (allowed : List Opt) : List Char → List Item × Option Opt
  | [] => ([], none)
  | c :: cs =>
    match allowed.find? (·.short? = some c) with
    | none => ([.misuse], none)
    | some o =>
      if o.takesValue then
        match cs with
        | [] => ([], some o)
        | '=' :: value => ([.value o (String.ofList value)], none)
        | value => ([.value o (String.ofList value)], none)
      else
        let (items, open?) := cluster allowed cs
        (.flag o :: items, open?)

/-- The item of a word that begins with two hyphens, or the option whose value is to come. -/
def longItem (allowed : List Opt) (cs : List Char) : List Item × Option Opt :=
  let (name, value) := match Text.cutFirst '=' cs with
    | some (name, value) => (name, some (String.ofList value))
    | none => (cs, none)
  match allowed.find? (·.long.toList = name), value with
  | none, _ => ([.misuse], none)
  | some o, some value => ([if o.takesValue then .value o value else .misuse], none)
  | some o, none => if o.takesValue then ([], some o) else ([.flag o], none)

/-- The items of a list of words, up to the first plain word if `toWord` says so, and the words
that are left. -/
def scan (allowed : List Opt) (toWord : Bool) : List String → Option Opt → List Item × List String
  | [], none => ([], [])
  | [], some _ => ([.misuse], [])
  | s :: rest, some o =>
    if isPlain s then
      let (items, left) := scan allowed toWord rest none
      (.value o s :: items, left)
    else ([.misuse], [])
  | s :: rest, none =>
    if s = "--" then if toWord then ([.misuse], []) else (rest.map .word, [])
    else if isPlain s then
      if toWord then ([], s :: rest)
      else
        let (items, left) := scan allowed toWord rest none
        (.word s :: items, left)
    else
      let (items, open?) := match s.toList with
        | '-' :: '-' :: cs => longItem allowed cs
        | _ :: cs => cluster allowed cs
        | [] => ([], none)
      let (more, left) := scan allowed toWord rest open?
      (items ++ more, left)

/-- Why a command line is no invocation. -/
inductive Stop where
  | usage
  | help
  | version
  deriving DecidableEq, Repr

/-- What the items of a command line give. -/
structure Given where
  flags : List Opt
  values : List (Opt × String)
  words : List String

namespace Given

def nothing : Given := ⟨[], [], []⟩

/-- Takes an item in. Help and version stop at once; all but repeatable options come once. -/
def take (mostWords : Nat) (g : Given) : Item → Except Stop Given
  | .flag .help => .error .help
  | .flag .version => .error .version
  | .flag o => if o ∈ g.flags then .error .usage else .ok { g with flags := g.flags ++ [o] }
  | .value o s =>
    if !o.accepts s || (!o.repeats && g.values.any (·.1 = o)) then .error .usage
    else .ok { g with values := g.values ++ [(o, s)] }
  | .word s =>
    if s = "" || mostWords ≤ g.words.length then .error .usage
    else .ok { g with words := g.words ++ [s] }
  | .misuse => .error .usage

def value? (g : Given) (o : Opt) : Option String := g.values.lookup o

end Given
end BenchMetrics.Command
