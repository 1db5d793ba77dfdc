import HeapPressure.Json.Number

/-!
JSON texts as a reader meets them, from left to right: the values up to the first place where
the text stops being JSON, and a mark there. A string or key whose escapes name half a
surrogate pair is `none`.
-/
namespace HeapPressure.Json

mutual

inductive Value where
  | null
  | boolean (b : Bool)
  | number (n : Number)
  | string (s : Option String)
  | array (items : Items)
  | object (members : Members)
  | absent

/-- The items of an array: `torn` stands where neither an item nor the end follows. -/
inductive Items where
  | close
  | torn
  | cons (v : Value) (rest : Items)

/-- The members of an object: `torn` stands where neither a member nor the end follows. -/
inductive Members where
  | close
  | torn
  | cons (key : Option String) (v : Value) (rest : Members)

end

/-- A text: its value, and whether anything but blanks follows it. -/
structure Text where
  value : Value
  trailing : Bool

mutual

/-- Whether a value can be passed over: it is JSON to its end, though its strings need not
spell characters. -/
def Value.isWhole : Value → Bool
  | .array items => items.isWhole
  | .object members => members.isWhole
  | .absent => false
  | _ => true

def Items.isWhole : Items → Bool
  | .close => true
  | .torn => false
  | .cons v rest => v.isWhole && rest.isWhole

def Members.isWhole : Members → Bool
  | .close => true
  | .torn => false
  | .cons _ v rest => v.isWhole && rest.isWhole

end

mutual

/-- Whether a value is well-formed throughout: whole, and all its strings spell characters. -/
def Value.isSound : Value → Bool
  | .string s => s.isSome
  | .array items => items.isSound
  | .object members => members.isSound
  | .absent => false
  | _ => true

def Items.isSound : Items → Bool
  | .close => true
  | .torn => false
  | .cons v rest => v.isSound && rest.isSound

def Members.isSound : Members → Bool
  | .close => true
  | .torn => false
  | .cons key v rest => key.isSome && v.isSound && rest.isSound

end

def Text.isSound (t : Text) : Bool := t.value.isSound && !t.trailing

end HeapPressure.Json
