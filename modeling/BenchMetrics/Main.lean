import BenchMetrics.Command.Run
import Std.Time.DateTime.Timestamp
/-! The program. It looks up the variables and files that a command names, has the command run
on them, and writes what comes of it. -/
namespace BenchMetrics

/-- A path through a file and one that is too long cannot be opened, and the error names them; a
directory can be opened but not read. -/
def faultOf : IO.Error → FileFault
  | .noFileOrDirectory .. => .missing
  | .permissionDenied .. => .denied
  | .inappropriateType (some _) _ _ => .notDirectory
  | .invalidArgument (some _) _ _ => .nameTooLong
  | _ => .directory

def readContent (path : String) : IO FileContent := do
  match ← (IO.FS.readBinFile path).toBaseIO with
  | .ok bytes => pure (.ok bytes)
  | .error e => pure (.error (faultOf e))

/-- Texts with what belongs to them, as a function. -/
def collectAll {α : Type} (keys : List String) (get : String → IO α) :
    IO (String → Option α) := do
  let pairs ← keys.mapM fun k => do pure (k, ← get k)
  pure fun k => pairs.lookup k

def randomId : IO RunId := do
  let bytes ← IO.getRandomBytes 16
  pure (RunId.ofRandom (bytes.toList.foldl (fun n b => 256 * n + b.toNat) 0))

def currentInstant : IO Instant := do
  let ns := (← Std.Time.Timestamp.now).toNanosecondsSinceUnixEpoch.val
  pure ⟨ns / 1000000000, (ns % 1000000000).toNat, false⟩

def world (words : List String) : IO Command.World := do
  let found ← collectAll Command.envNames fun name => IO.getEnv name
  let env (name : String) : Option String := (found name).join
  let contents ← collectAll (Command.files env words) readContent
  pure ⟨env, fun path => (contents path).getD (.error .missing), ← randomId, ← currentInstant⟩

end BenchMetrics

open BenchMetrics in
def main (words : List String) : IO UInt32 := do
  let outcome := Command.run (← world words) words
  IO.print outcome.output
  IO.eprint outcome.complaint
  pure outcome.code.toUInt32
