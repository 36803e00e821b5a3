import BenchMetrics.Settings.Basic
/-! Settings from environment variables. Words are read without regard to case and white space
around them; the first bad variable decides, and only then an empty selection. -/
namespace BenchMetrics

/-- The form of a word that is compared. -/
def plainWord (s : String) : String := Text.lowerAscii (Text.strip s)

def parsePolicy (s : String) : Except SettingsError RejectionPolicy :=
  match RejectionPolicy.ofText? (plainWord s) with
  | some p => .ok p
  | none => .error (.badValue .policy (plainWord s))

def parseStreaming (s : String) : Except SettingsError Bool :=
  let word := plainWord s
  if word ∈ ["1", "true", "yes", "on"] then .ok true
  else if word ∈ ["0", "false", "no", "off"] then .ok false
  else .error (.badValue .streaming word)

/-- A unit is reported as it was written. -/
def parseDisplayUnit (s : String) : Except SettingsError TimeUnit :=
  match TimeUnit.parse s with
  | .ok u => .ok u
  | .error _ => .error (.badValue .displayUnit s)

/-- The pieces between commas that are not blank, trimmed. -/
def parseSelection (s : String) : List String :=
  (((Text.pieces ',' s.toList).map Text.trim).filter (!·.isEmpty)).map String.ofList

/-- The value of a variable, or what stands for it when it is not set. -/
def readVariable {α : Type} (env : String → Option String) (setting : Setting)
    (parse : String → Except SettingsError α) (default : α) : Except SettingsError α :=
  match env setting.envName with
  | some s => parse s
  | none => .ok default

def Settings.ofEnvironment (env : String → Option String) : Except SettingsError Settings := do
  let streaming ← readVariable env .streaming parseStreaming Settings.default.streaming
  let policy ← readVariable env .policy parsePolicy Settings.default.policy
  let selection ← readVariable env .selection (fun s => .ok (some (parseSelection s)))
    Settings.default.selection
  let displayUnit ← readVariable env .displayUnit parseDisplayUnit Settings.default.displayUnit
  let settings : Settings := ⟨streaming, policy, selection, displayUnit⟩
  settings.validate
  .ok settings

end BenchMetrics
