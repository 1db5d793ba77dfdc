import HeapPressure.Report.Basic
import HeapPressure.Json.Decode
import HeapPressure.Json.Reader

/-!
Reports as JSON. A report is an object of its fields, in any order and with any others between
them, or an array of its fields in their order.
-/
namespace HeapPressure.Report

open HeapPressure.Json (Document Value Items Members Error)

def document (r : Report) : Document :=
  .object [
    ("verdict", .string r.verdict.name),
    ("exit_code", .ofOption (fun c => .integer c.toInt) r.exitCode),
    ("signal", .ofOption (fun s => .integer s.toInt) r.signal),
    ("wall_time_ms", .integer r.wallTimeMillis.toNat),
    ("cpu_time_us", .integer r.cpuTimeMicros.toNat),
    ("peak_memory_bytes", .integer r.peakMemoryBytes.toNat),
    ("memory_limit_bytes", .ofOption (fun b => .integer b.toNat) r.memoryLimitBytes),
    ("stdout", .string r.stdout),
    ("stderr", .string r.stderr)]

/-- The fields read so far. -/
structure Draft where
  verdict : Option Verdict := none
  exitCode : Option (Option Int32) := none
  signal : Option (Option Int32) := none
  wallTimeMillis : Option UInt64 := none
  cpuTimeMicros : Option UInt64 := none
  peakMemoryBytes : Option UInt64 := none
  memoryLimitBytes : Option (Option UInt64) := none
  stdout : Option String := none
  stderr : Option String := none

def readVerdict (v : Value) : Except Error Verdict := v.variant Verdict.ofName? Verdict.names

/-- A known field is read into the draft, any other is passed over. -/
def Draft.field (d : Draft) (name : String) (v : Value) : Except Error Draft :=
  match name with
  | "verdict" => do pure { d with verdict := ← Json.once name d.verdict (readVerdict v) }
  | "exit_code" => do
    pure { d with exitCode := ← Json.once name d.exitCode (v.optional Value.signed32) }
  | "signal" => do
    pure { d with signal := ← Json.once name d.signal (v.optional Value.signed32) }
  | "wall_time_ms" => do
    pure { d with wallTimeMillis := ← Json.once name d.wallTimeMillis v.unsigned64 }
  | "cpu_time_us" => do
    pure { d with cpuTimeMicros := ← Json.once name d.cpuTimeMicros v.unsigned64 }
  | "peak_memory_bytes" => do
    pure { d with peakMemoryBytes := ← Json.once name d.peakMemoryBytes v.unsigned64 }
  | "memory_limit_bytes" => do
    pure { d with
      memoryLimitBytes := ← Json.once name d.memoryLimitBytes (v.optional Value.unsigned64) }
  | "stdout" => do pure { d with stdout := ← Json.once name d.stdout (v.text .string) }
  | "stderr" => do pure { d with stderr := ← Json.once name d.stderr (v.text .string) }
  | _ => do
    Json.skip v
    pure d

/-- Codes, signals and limits that are not given are absent; all else has to be given. -/
def Draft.finish (d : Draft) : Except Error Report := do
  pure {
    verdict := ← Json.required "verdict" d.verdict
    exitCode := d.exitCode.join
    signal := d.signal.join
    wallTimeMillis := ← Json.required "wall_time_ms" d.wallTimeMillis
    cpuTimeMicros := ← Json.required "cpu_time_us" d.cpuTimeMicros
    peakMemoryBytes := ← Json.required "peak_memory_bytes" d.peakMemoryBytes
    memoryLimitBytes := d.memoryLimitBytes.join
    stdout := ← Json.required "stdout" d.stdout
    stderr := ← Json.required "stderr" d.stderr }

def ofMembers (d : Draft) : Members → Except Error Report
  | .close => d.finish
  | .cons (some name) v rest => do ofMembers (← d.field name v) rest
  | _ => .error .badText

/-- The field at place `i` of the array form. -/
def item {α : Type} (i : Nat) (read : Value → Except Error α) (items : Items) :
    Except Error (α × Items) := do
  match ← items.next? with
  | some (v, rest) => pure (← read v, rest)
  | none => .error (.problem (.tooShort i "RunReport" 9))

def ofItems (items : Items) : Except Error Report := do
  let (verdict, items) ← item 0 readVerdict items
  let (exitCode, items) ← item 1 (Value.optional Value.signed32) items
  let (signal, items) ← item 2 (Value.optional Value.signed32) items
  let (wallTimeMillis, items) ← item 3 Value.unsigned64 items
  let (cpuTimeMicros, items) ← item 4 Value.unsigned64 items
  let (peakMemoryBytes, items) ← item 5 Value.unsigned64 items
  let (memoryLimitBytes, items) ← item 6 (Value.optional Value.unsigned64) items
  let (stdout, items) ← item 7 (Value.text .string) items
  let (stderr, items) ← item 8 (Value.text .string) items
  items.finish
  pure {
    verdict, exitCode, signal, wallTimeMillis, cpuTimeMicros, peakMemoryBytes,
    memoryLimitBytes, stdout, stderr }

def ofValue : Value → Except Error Report
  | .object members => ofMembers {} members
  | .array items => ofItems items
  | v => v.refuse (.record "RunReport")

def ofJson (text : String) : Except Error Report := do
  let t := Json.read text
  t.finish (← ofValue t.value)

end HeapPressure.Report
