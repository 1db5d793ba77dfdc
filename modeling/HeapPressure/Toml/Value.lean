/-!
TOML documents as trees. Every value knows the stretch of text it was read from; a table that
only the keys of others brought about has none.
-/
namespace HeapPressure.Toml

/-- A stretch of text, by the number of characters that were still to be read at its first
character and behind its last. -/
structure Span where
  start : Nat
  stop : Nat
deriving DecidableEq

/-- From the text `before` to its tail `after`. -/
def Span.between (before after : List Char) : Span := ⟨before.length, after.length⟩

structure Key where
  name : String
  span : Span
deriving DecidableEq

inductive Scalar where
  | string (s : String)
  | integer (n : Int)
  | float (x : Float)
  | boolean (b : Bool)
  | moment

/-- How a table came about: `implicit` by being named on the way to another, `dotted` by a
dotted key. -/
structure Form where
  implicit : Bool := false
  dotted : Bool := false
deriving DecidableEq

structure TableOf (α : Type) where
  form : Form := {}
  span : Option Span := none
  entries : List (Key × α) := []

inductive Node where
  | leaf (v : Scalar) (span : Span)
  | array (items : List Node) (span : Span)
  /-- A table written in braces. -/
  | inlined (t : TableOf Node)
  | table (t : TableOf Node)
  /-- An array of tables, each under a header of its own. -/
  | tables (items : List (TableOf Node))

abbrev Table := TableOf Node

def Scalar.kind : Scalar → String
  | .string _ => "string"
  | .integer _ => "integer"
  | .float _ => "float"
  | .boolean _ => "boolean"
  | .moment => "datetime"

/-- From the header of the first table to the end of the last. -/
def tablesSpan? (items : List Table) : Option Span := do
  let first ← (← items.head?).span
  let last ← (← items.getLast?).span
  pure ⟨first.start, last.stop⟩

def Node.span? : Node → Option Span
  | .leaf _ span => some span
  | .array _ span => some span
  | .inlined t => t.span
  | .table t => t.span
  | .tables items => tablesSpan? items

/-- The entry under a name. -/
def find? {α : Type} (name : String) (entries : List (Key × α)) : Option α :=
  (entries.find? fun e => e.1.name == name).map Prod.snd

end HeapPressure.Toml
