import HeapPressure.Settings.Basic

/-!
Settings as TOML, the form of the settings file. What is read has to be valid.
-/
namespace HeapPressure.Settings

/-- Writing fails for integers beyond 63 bits. -/
inductive WriteError where
  | tooLarge
deriving DecidableEq

def WriteError.message : WriteError → String
  | .tooLarge => "out-of-range value for u64 type"

def integer (n : UInt64) : Except WriteError String :=
  if n.toNat < 0x8000000000000000 then .ok (toString n.toNat) else .error .tooLarge

/-- The log section comes last, and is always there. -/
def toToml (s : Settings) : Except WriteError String := do
  let limit ← integer s.memoryLimitMb
  let timeout ← integer s.timeoutSecs
  pure (Toml.pairLine "memory-limit-mb" limit ++ Toml.pairLine "timeout-secs" timeout
    ++ ((s.fixture.map fun path => Toml.pairLine "fixture" (Toml.quote path)).getD "")
    ++ "\n[logging]\n" ++ s.logging.tomlLines)

def addEntry (s : Settings) (e : Toml.Key × Toml.Node) : Except Toml.Fault Settings :=
  match e.1.name with
  | "memory-limit-mb" => do
    pure { s with memoryLimitMb := ← Toml.readEntry Toml.Node.unsigned64 e.1 e.2 }
  | "timeout-secs" => do
    pure { s with timeoutSecs := ← Toml.readEntry Toml.Node.unsigned64 e.1 e.2 }
  | "fixture" => do
    pure { s with fixture := some (← Toml.readEntry (Toml.Node.text .path) e.1 e.2) }
  | "logging" => do pure { s with logging := ← Toml.readEntry Log.Choices.ofNode e.1 e.2 }
  | name => .error ⟨.unknownField name fieldNames, some e.1.span⟩

/-- What a document says, on top of the defaults. -/
def ofTable (t : Toml.Table) : Except Toml.Fault Settings := t.entries.foldlM addEntry {}

inductive ReadError where
  | document (e : Toml.Error) (text : String)
  | invalid (i : Invalid)
deriving DecidableEq

/-- Reads and validates settings. -/
def ofToml (text : String) : Except ReadError Settings :=
  match Toml.read text with
  | none => .error (.document .badText text)
  | some t =>
    match ofTable t with
    | .error f => .error (.document (.fault f) text)
    | .ok s => s.validated.mapError .invalid

end HeapPressure.Settings
