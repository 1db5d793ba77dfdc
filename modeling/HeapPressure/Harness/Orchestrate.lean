import HeapPressure.Harness.Run
import HeapPressure.Report.Json
import HeapPressure.CommandLine.Basic

/-!
The harness as a program: settings from the file, the environment and the command line, one run
of the fixture, one report on the output, and an exit status that says whether the verdict is
accepted.
-/
namespace HeapPressure.Harness

/-- An error with what was being done when it arose. -/
structure Failure where
  context : String
  error : Error
deriving DecidableEq

private def indented (indent : String) (text : String) : String :=
  ("\n" ++ indent).intercalate (text.splitOn "\n")

/-- A single cause stands alone, several are numbered. -/
def Failure.message (f : Failure) : String :=
  let causes :=
    match f.error.causes with
    | [cause] => ["    " ++ indented "    " cause]
    | causes =>
      causes.mapIdx fun i cause => "    " ++ toString i ++ ": " ++ indented "       " cause
  "Error: " ++ f.context ++ "\n\nCaused by:\n" ++ "\n".intercalate causes

def inContext {α : Type} (context : String) : Except Error α → Except Failure α
  | .ok a => .ok a
  | .error e => .error ⟨context, e⟩

/-- What is settled before the fixture is looked for. -/
structure Prepared where
  settings : Settings
  level : Log.Level
  format : Log.Format
deriving DecidableEq

/-- Flags come before the settings file, and that before the defaults. -/
def prepare (host : Host) (args : CommandLine.Arguments) : Except Failure Prepared := do
  let file ←
    match args.config with
    | some path => inContext ("loading config " ++ path) (loadSettings host path)
    | none => .ok {}
  let logging := args.logging.orElse file.logging
  let settings ←
    inContext "resolving configuration" ((file.apply args.overrides).mapError Error.invalidConfig)
  pure ⟨settings, logging.level.getD .info, logging.format.getD .plaintext⟩

/-- The report as it is printed. -/
def reportText (json : Bool) (r : Report) : String :=
  if json then r.document.pretty else r.display

/-- How the program ends. -/
structure Outcome where
  exitCode : Nat
  stdout : String := ""
  failure : Option Failure := none

def Outcome.ofFailure (f : Failure) : Outcome := { exitCode := 1, failure := some f }

def Outcome.ofReport (json : Bool) (r : Report) : Outcome where
  exitCode := if r.verdict.isAccepted then 0 else 1
  stdout := reportText json r ++ "\n"

/-- `none` while the run goes on. -/
def perform (host : Host) (args : CommandLine.Arguments) : Option Outcome :=
  match prepare host args with
  | .error f => some (.ofFailure f)
  | .ok prepared =>
    match inContext "preparing fixture" (Launch.ofSettings host prepared.settings) with
    | .error f => some (.ofFailure f)
    | .ok launch =>
      (run host launch).map fun r =>
        match inContext "running fixture" r.result with
        | .error f => .ofFailure f
        | .ok report => .ofReport args.json report

/-- The program from its command line on. -/
def orchestrate (host : Host) (args : List String) (env : CommandLine.Environment) :
    Option Outcome :=
  match CommandLine.parse args env with
  | .error e => some { exitCode := e.exitCode }
  | .ok args => perform host args

end HeapPressure.Harness
