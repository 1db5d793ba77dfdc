import HeapPressure.Log.Level
import HeapPressure.Json.Decode
import HeapPressure.Json.Writer
import HeapPressure.Toml.Decode
import HeapPressure.Toml.Reader
import HeapPressure.Toml.Writer

/-!
The choices that settings and command lines make about the log, and their JSON and TOML forms.
In both, fields that are no choices are passed over.
-/
namespace HeapPressure.Log

/-- What is absent is left to the program. -/
structure Choices where
  level : Option Level := none
  format : Option Format := none
deriving DecidableEq

namespace Choices

open HeapPressure.Json (Document Value Items Members Error)

/-- The first choice that is present, in each part. -/
def orElse (a b : Choices) : Choices where
  level := a.level.or b.level
  format := a.format.or b.format

def document (c : Choices) : Document :=
  .object [
    ("log-level", .ofOption (fun l => .string l.name) c.level),
    ("log-format", .ofOption (fun f => .string f.name) c.format)]

/-- The choices that were made, and no others. -/
def briefDocument (c : Choices) : Document :=
  .object ((c.level.map fun l => ("log-level", Document.string l.name)).toList
    ++ (c.format.map fun f => ("log-format", Document.string f.name)).toList)

def readLevel (v : Value) : Except Error Level := v.variant Level.ofName? Level.names

def readFormat (v : Value) : Except Error Format := v.variant Format.ofName? Format.names

structure Draft where
  level : Option (Option Level) := none
  format : Option (Option Format) := none

def Draft.field (d : Draft) (name : String) (v : Value) : Except Error Draft :=
  match name with
  | "log-level" => do pure { d with level := ← Json.once name d.level (v.optional readLevel) }
  | "log-format" => do pure { d with format := ← Json.once name d.format (v.optional readFormat) }
  | _ => do
    Json.skip v
    pure d

def ofMembers (d : Draft) : Members → Except Error Choices
  | .close => .ok ⟨d.level.join, d.format.join⟩
  | .cons (some name) v rest => do ofMembers (← d.field name v) rest
  | _ => .error .badText

private def choice {α : Type} (i : Nat) (read : Value → Except Error α) (items : Items) :
    Except Error (Option α × Items) := do
  match ← items.next? with
  | some (v, rest) => pure (← v.optional read, rest)
  | none => .error (.problem (.tooShort i "LoggingConfig" 2))

def ofItems (items : Items) : Except Error Choices := do
  let (level, items) ← choice 0 readLevel items
  let (format, items) ← choice 1 readFormat items
  items.finish
  pure ⟨level, format⟩

def ofValue : Value → Except Error Choices
  | .object members => ofMembers {} members
  | .array items => ofItems items
  | v => v.refuse (.record "LoggingConfig")

/-- The lines of the choices made. -/
def tomlLines (c : Choices) : String :=
  ((c.level.map fun l => Toml.pairLine "log-level" (Toml.quote l.name)).getD "")
    ++ ((c.format.map fun f => Toml.pairLine "log-format" (Toml.quote f.name)).getD "")

def levelOfNode (n : Toml.Node) : Except Toml.Fault Level := n.variant Level.ofName? Level.names

def formatOfNode (n : Toml.Node) : Except Toml.Fault Format := n.variant Format.ofName? Format.names

def addEntry (c : Choices) (e : Toml.Key × Toml.Node) : Except Toml.Fault Choices :=
  match e.1.name with
  | "log-level" => do pure { c with level := some (← Toml.readEntry levelOfNode e.1 e.2) }
  | "log-format" => do pure { c with format := some (← Toml.readEntry formatOfNode e.1 e.2) }
  | _ => .ok c

def ofTable (t : Toml.Table) : Except Toml.Fault Choices := t.entries.foldlM addEntry {}

/-- An array gives the choices in their order; more items do not count. -/
def ofArray : List Toml.Node → Except Toml.Fault Choices
  | [] => .error ⟨.tooShort 0 "LoggingConfig" 2, none⟩
  | [level] => do
    let _ ← levelOfNode level
    .error ⟨.tooShort 1 "LoggingConfig" 2, none⟩
  | level :: format :: _ => do
    let level ← levelOfNode level
    pure ⟨some level, some (← formatOfNode format)⟩

/-- A date or time is a map without choices. -/
def ofNode (n : Toml.Node) : Except Toml.Fault Choices :=
  match n with
  | .table t => ofTable t
  | .inlined t => ofTable t
  | .array items span =>
    match ofArray items with
    | .ok c => .ok c
    | .error f => .error (f.within (some span))
  | .tables items =>
    match ofArray (items.map .table) with
    | .ok c => .ok c
    | .error f => .error (f.within n.span?)
  | .leaf .moment _ => .ok {}
  | _ => n.refuse (.record "LoggingConfig")

/-- Reads a document that holds choices at its top. -/
def ofToml (text : String) : Except Toml.Error Choices :=
  match Toml.read text with
  | none => .error .badText
  | some t =>
    match ofTable t with
    | .ok c => .ok c
    | .error f => .error (.fault f)

end Choices
end HeapPressure.Log
