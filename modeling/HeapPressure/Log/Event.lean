import HeapPressure.Log.Level
import HeapPressure.Decimal.Shortest

/-!
Log events: a level, the target they belong to, a message and fields.
-/
namespace HeapPressure.Log

inductive FieldValue where
  | count (n : Nat)
  | flag (b : Bool)
  | text (s : String)
  /-- A number of milliseconds, shown in seconds. -/
  | seconds (millis : Nat)
deriving DecidableEq

structure Event where
  level : Level
  target : String
  message : String
  fields : List (String × FieldValue) := []
  /-- The names of fields whose values hang on the moment; they are not shown. -/
  momentary : List String := []
deriving DecidableEq

/-- The message is a field too. -/
def Event.fieldNames (e : Event) : List String :=
  "message" :: e.fields.map (·.1) ++ e.momentary

/-- Whole seconds and the fraction are added as doubles. -/
def secondsText (millis : Nat) : String :=
  let whole := (millis / 1000).toUInt64.toFloat
  let nanos := (millis % 1000 * 1000000).toUInt64.toFloat
  Decimal.textOf .moderate (whole + nanos / 1000000000.0)

def FieldValue.show : FieldValue → String
  | .count n => toString n
  | .flag b => if b then "true" else "false"
  | .text s => s
  | .seconds millis => secondsText millis

/-- The message followed by the fields. -/
def Event.plainText (e : Event) : String :=
  e.message ++ String.join (e.fields.map fun f => " " ++ f.1 ++ "=" ++ f.2.show)

end HeapPressure.Log
