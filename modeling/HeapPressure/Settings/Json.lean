import HeapPressure.Settings.Basic
import HeapPressure.Json.Reader

/-!
Settings as JSON. Fields that are not given keep their defaults; a field that nobody knows is
an error.
-/
namespace HeapPressure.Settings

open Json (Document Value Items Members Error)

def document (s : Settings) : Document :=
  .object [
    ("memory-limit-mb", .integer s.memoryLimitMb.toNat),
    ("timeout-secs", .integer s.timeoutSecs.toNat),
    ("fixture", .ofOption .string s.fixture),
    ("logging", s.logging.document)]

structure Draft where
  memoryLimitMb : Option UInt64 := none
  timeoutSecs : Option UInt64 := none
  fixture : Option (Option String) := none
  logging : Option Log.Choices := none

def readPath (v : Value) : Except Error (Option String) := v.optional (Value.text .path)

def Draft.field (d : Draft) (name : String) (v : Value) : Except Error Draft :=
  match name with
  | "memory-limit-mb" => do
    pure { d with memoryLimitMb := ← Json.once name d.memoryLimitMb v.unsigned64 }
  | "timeout-secs" => do
    pure { d with timeoutSecs := ← Json.once name d.timeoutSecs v.unsigned64 }
  | "fixture" => do pure { d with fixture := ← Json.once name d.fixture (readPath v) }
  | "logging" => do
    pure { d with logging := ← Json.once name d.logging (Log.Choices.ofValue v) }
  | _ => .error (.problem (.unknownField name fieldNames))

def Draft.finish (d : Draft) : Settings :=
  let base : Settings := {}
  { memoryLimitMb := d.memoryLimitMb.getD base.memoryLimitMb
    timeoutSecs := d.timeoutSecs.getD base.timeoutSecs
    fixture := d.fixture.join
    logging := d.logging.getD {} }

def ofMembers (d : Draft) : Members → Except Error Settings
  | .close => .ok d.finish
  | .cons (some name) v rest => do ofMembers (← d.field name v) rest
  | _ => .error .badText

private def item? {α : Type} (read : Value → Except Error α) (items : Items) :
    Except Error (Option α × Items) := do
  match ← items.next? with
  | some (v, rest) => pure (some (← read v), rest)
  | none => pure (none, items)

/-- In the array form fields may be missing at the end. -/
def ofItems (items : Items) : Except Error Settings := do
  let (memoryLimitMb, items) ← item? Value.unsigned64 items
  let (timeoutSecs, items) ← item? Value.unsigned64 items
  let (fixture, items) ← item? readPath items
  let (logging, items) ← item? Log.Choices.ofValue items
  items.finish
  pure (Draft.finish { memoryLimitMb, timeoutSecs, fixture, logging })

def ofValue : Value → Except Error Settings
  | .object members => ofMembers {} members
  | .array items => ofItems items
  | v => v.refuse (.record "EnforcementConfig")

/-- Reads settings without validating them. -/
def ofJson (text : String) : Except Error Settings := do
  let t := Json.read text
  t.finish (← ofValue t.value)

end HeapPressure.Settings
