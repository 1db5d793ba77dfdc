import HeapPressure.Harness.Orchestrate
import HeapPressure.Machine.Host

/-!
The harness as a command. Its settings file is read from the real file system; children run on
the standard machine.
-/
namespace HeapPressure

open Harness (SystemError)

private def systemError : IO.Error → SystemError
  | .noFileOrDirectory _ _ _ => .notFound
  | .permissionDenied _ _ _ => .permissionDenied
  | .inappropriateType _ 20 _ => .notDirectory
  | .inappropriateType _ _ _ => .isDirectory
  | .otherError number reason | .hardwareFault number reason | .resourceBusy number reason
  | .resourceExhausted _ number reason | .invalidArgument _ number reason =>
    .other number.toNat reason
  | _ => .invalidUtf8

private def readBytes (path : String) : IO (Except SystemError (List UInt8)) := do
  try
    pure (.ok (← IO.FS.readBinFile path).toList)
  catch e => pure (.error (systemError e))

private def variableNames : List String :=
  ["OOM_MEMORY_LIMIT_MB", "OOM_TIMEOUT_SECS", "OOM_FIXTURE"]

private def environment : IO (List (String × String)) := do
  let found ← variableNames.mapM fun name => do
    pure ((← IO.getEnv name).map fun value => (name, value))
  pure (found.filterMap id)

/-- The standard machine, with the settings file that the command line names. -/
private def hostFor (args : List String) (env : List (String × String)) : IO Harness.Host := do
  let host := Machine.standard.host
  match CommandLine.parse args (fun name => env.lookup name) with
  | .ok { config := some path, .. } =>
    let contents ← readBytes path
    pure { host with readFile := fun p => if p == path then contents else host.readFile p }
  | _ => pure host

end HeapPressure

open HeapPressure in
def main (args : List String) : IO UInt32 := do
  let env ← environment
  let host ← hostFor args env
  match Harness.orchestrate host args (fun name => env.lookup name) with
  | none => return 1
  | some outcome =>
    IO.print outcome.stdout
    match outcome.failure with
    | some f => IO.eprintln f.message
    | none => pure ()
    return outcome.exitCode.toUInt32
