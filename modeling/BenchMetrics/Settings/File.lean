import BenchMetrics.Run.Session
/-! Settings from a file in JSON. -/
namespace BenchMetrics

def Settings.ofFile (path : String) (content : FileContent) : Except SettingsError Settings :=
  match content.text with
  | .error fault => .error (.unreadableFile path fault)
  | .ok text =>
    match Json.decodeText Settings.decode text with
    | none => .error (.malformedFile path)
    | some s => do
      s.validate
      .ok s

end BenchMetrics
