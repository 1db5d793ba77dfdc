import HeapPressure.CommandLine.Scan
import HeapPressure.Settings.Basic

/-!
The command lines of the programs: the log options, which all of them have, and those of the
harness, three of which an environment variable stands in for.
-/
namespace HeapPressure.CommandLine

/-- A count of 64 bits in decimal digits, perhaps behind a plus sign. -/
def count? (s : String) : Option UInt64 :=
  let digits :=
    match s.toList with
    | '+' :: cs => cs
    | cs => cs
  if digits.isEmpty || !digits.all Char.isDigit then none
  else
    let n : Nat := digits.foldl (fun n d => n * 10 + (d.toNat - 48)) 0
    if n < 0x10000000000000000 then some n.toUInt64 else none

def acceptsPath (s : String) : Bool := !s.isEmpty

def acceptsCount (s : String) : Bool := (count? s).isSome

def helpOption : OptionSpec := ⟨"help", .help⟩

def logOptions : List OptionSpec := [
  ⟨"log-level", .value fun s => (Log.Level.ofName? s).isSome⟩,
  ⟨"log-format", .value fun s => (Log.Format.ofName? s).isSome⟩]

def harnessOptions : List OptionSpec := [
  ⟨"config", .value acceptsPath⟩,
  ⟨"memory-limit-mb", .value acceptsCount⟩,
  ⟨"timeout-secs", .value acceptsCount⟩,
  ⟨"fixture", .value acceptsPath⟩,
  ⟨"json", .flag⟩]

def given? (options : List (String × String)) (name : String) : Option String :=
  (options.find? fun o => o.1 == name).map Prod.snd

def choices (options : List (String × String)) : Log.Choices where
  level := (given? options "log-level").bind Log.Level.ofName?
  format := (given? options "log-format").bind Log.Format.ofName?

/-- The log options alone. -/
def parseLogOptions (args : List String) : Except UsageError Log.Choices :=
  (scan (helpOption :: logOptions) args).map choices

/-- A command line of the harness, with what the environment adds to it. -/
structure Arguments where
  config : Option String := none
  overrides : Settings.Overrides := {}
  json : Bool := false
  logging : Log.Choices := {}
deriving DecidableEq

abbrev Environment := String → Option String

/-- The option, or the variable that stands in for it; a variable that is set has to be
acceptable, unless the option is given. -/
def orVariable (env : Environment) (name : String) (accepts : String → Bool)
    (option : Option String) : Except UsageError (Option String) :=
  match option, env name with
  | some v, _ => .ok (some v)
  | none, some v => if accepts v then .ok (some v) else .error .invalidValue
  | none, none => .ok none

def parse (args : List String) (env : Environment) : Except UsageError Arguments := do
  let options ← scan (helpOption :: harnessOptions ++ logOptions) args
  let limit ←
    orVariable env "OOM_MEMORY_LIMIT_MB" acceptsCount (given? options "memory-limit-mb")
  let timeout ← orVariable env "OOM_TIMEOUT_SECS" acceptsCount (given? options "timeout-secs")
  let fixture ← orVariable env "OOM_FIXTURE" acceptsPath (given? options "fixture")
  pure {
    config := given? options "config"
    overrides := ⟨limit.bind count?, timeout.bind count?, fixture⟩
    json := (given? options "json").isSome
    logging := choices options }

end HeapPressure.CommandLine
