import BenchMetrics.Text.Blank
import BenchMetrics.Time.Unit
/-! Settings of a run: which metrics, what to do about rejected records, and how times are
shown. -/
namespace BenchMetrics

/-- What happens when a metric rejects a record. -/
inductive RejectionPolicy where
  /-- The metric leaves the record out. -/
  | skip
  /-- The run stops. -/
  | abort
  deriving DecidableEq, Repr, Inhabited

def RejectionPolicy.text : RejectionPolicy → String
  | .skip => "skip"
  | .abort => "abort"

def RejectionPolicy.ofText? (s : String) : Option RejectionPolicy :=
  if s = "skip" then some .skip else if s = "abort" then some .abort else none

structure Settings where
  /-- Replies are streamed; otherwise metrics that need streams are left out. -/
  streaming : Bool
  policy : RejectionPolicy
  /-- The tags of the selected metrics; every metric if absent. -/
  selection : Option (List String)
  displayUnit : TimeUnit
  deriving DecidableEq, Repr

/-- The settings that have a value of their own in the environment. -/
inductive Setting where
  | streaming
  | policy
  | selection
  | displayUnit
  deriving DecidableEq, Repr

namespace Setting

def envName : Setting → String
  | .streaming => "PERF_LENS_STREAMING"
  | .policy => "PERF_LENS_FAILURE_POLICY"
  | .selection => "PERF_LENS_METRICS"
  | .displayUnit => "PERF_LENS_DISPLAY_UNIT"

def expected : Setting → String
  | .streaming => "true|false"
  | .policy => "skip|abort"
  | .selection => "comma-separated metric tags"
  | .displayUnit => "ns|us|ms|s"

end Setting

/-- Why a file could not be read. -/
inductive FileFault where
  | missing
  | denied
  | directory
  /-- Its path leads through a file. -/
  | notDirectory
  /-- The path, or a part of it, is longer than paths can be. -/
  | nameTooLong
  | notText
  deriving DecidableEq, Repr

def FileFault.message : FileFault → String
  | .missing => "No such file or directory (os error 2)"
  | .denied => "Permission denied (os error 13)"
  | .directory => "Is a directory (os error 21)"
  | .notDirectory => "Not a directory (os error 20)"
  | .nameTooLong => "File name too long (os error 36)"
  | .notText => "stream did not contain valid UTF-8"

inductive SettingsError where
  | badValue (setting : Setting) (actual : String)
  | emptySelection
  | unreadableFile (path : String) (fault : FileFault)
  /-- The file holds no JSON value of settings. -/
  | malformedFile (path : String)
  deriving DecidableEq, Repr

/-- The text of a malformed file's error up to the description of what is malformed. -/
def SettingsError.message : SettingsError → String
  | .badValue setting actual =>
    "Invalid value for " ++ setting.envName ++ ": expected " ++ setting.expected ++ ", got " ++
      actual
  | .emptySelection => "Metric selection is empty"
  | .unreadableFile path fault =>
    "Failed to read config file " ++ path ++ ": " ++ fault.message
  | .malformedFile path => "Failed to parse config file " ++ path ++ ": malformed settings"

namespace Settings

def default : Settings := ⟨true, .skip, none, .milliseconds⟩

/-- A selection that is given has to name something, and nothing blank. -/
def validate (s : Settings) : Except SettingsError Unit :=
  match s.selection with
  | none => .ok ()
  | some [] => .error .emptySelection
  | some names =>
    match names.find? Text.blank with
    | some name => .error (.badValue .selection name)
    | none => .ok ()

end Settings
end BenchMetrics
