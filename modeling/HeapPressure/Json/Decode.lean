import HeapPressure.Json.Value

/-!
Taking values out of a JSON text. The text is read from left to right and the first thing
wrong is reported, be it that the text is no JSON or that the value is not the one expected.
-/
namespace HeapPressure.Json

open Document (Expected Found)

inductive Error where
  | badText
  | problem (p : Document.Problem)
deriving DecidableEq

namespace Value

/-- The beginning of a value tells what it is. -/
def found? : Value → Option Found
  | .null => some .null
  | .boolean b => some (.boolean b)
  | .number n => n.reading.found?
  | .string s => s.map .string
  | .array _ => some .sequence
  | .object _ => some .map
  | .absent => none

def refuse {α : Type} (v : Value) (expected : Expected) : Except Error α :=
  match v.found? with
  | some f => .error (.problem (.wrongType f expected))
  | none => .error .badText

/-- An integer between `low` and `high`. -/
def integerWithin (low high : Int) (expected : Expected) (v : Value) : Except Error Int :=
  match v with
  | .number n =>
    match n.integer? with
    | some i =>
      if low ≤ i ∧ i ≤ high then .ok i else .error (.problem (.outOfRange i expected))
    | none => v.refuse expected
  | _ => v.refuse expected

def unsigned64 (v : Value) : Except Error UInt64 :=
  (v.integerWithin 0 0xFFFFFFFFFFFFFFFF .unsigned64).map fun i => i.toNat.toUInt64

def signed32 (v : Value) : Except Error Int32 :=
  (v.integerWithin (-0x80000000) 0x7FFFFFFF .signed32).map Int32.ofInt

def text (expected : Expected) (v : Value) : Except Error String :=
  match v with
  | .string (some s) => .ok s
  | _ => v.refuse expected

/-- `null`, or what `read` makes of the value. -/
def optional {α : Type} (read : Value → Except Error α) (v : Value) : Except Error (Option α) :=
  match v with
  | .null => .ok none
  | _ => (read v).map some

def named {α : Type} (ofName? : String → Option α) (known : List String) (name : String) :
    Except Error α :=
  match ofName? name with
  | some a => .ok a
  | none => .error (.problem (.unknownVariant name known))

/-- A variant is a name, or an object whose one key is the name and whose value is `null`. -/
def variant {α : Type} (ofName? : String → Option α) (known : List String) :
    Value → Except Error α
  | .string (some name) => named ofName? known name
  | .object (.cons key v rest) => do
    match key with
    | none => .error .badText
    | some key =>
      let a ← named ofName? known key
      match v with
      | .null =>
        match rest with
        | .close => .ok a
        | _ => .error .badText
      | _ => v.refuse .nothing
  | _ => .error .badText

end Value

/-- Passes over a value that nobody asked for. -/
def skip (v : Value) : Except Error Unit := if v.isWhole then .ok () else .error .badText

/-- Nothing may follow the value. -/
def Text.finish {α : Type} (t : Text) (a : α) : Except Error α :=
  if t.trailing then .error .badText else .ok a

/-- A field that is set at most once. -/
def once {α : Type} (name : String) (old : Option α) (read : Except Error α) :
    Except Error (Option α) :=
  match old with
  | some _ => .error (.problem (.duplicateField name))
  | none => read.map some

/-- A field that must have been set. -/
def required {α : Type} (name : String) : Option α → Except Error α
  | some a => .ok a
  | none => .error (.problem (.missingField name))

/-- The next item of an array that stands for a record, if there is one. -/
def Items.next? : Items → Except Error (Option (Value × Items))
  | .cons v rest => .ok (some (v, rest))
  | .close => .ok none
  | .torn => .error .badText

/-- No item may follow. -/
def Items.finish : Items → Except Error Unit
  | .close => .ok ()
  | _ => .error .badText

end HeapPressure.Json
