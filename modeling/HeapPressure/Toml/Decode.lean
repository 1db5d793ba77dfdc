import HeapPressure.Toml.Fault
import HeapPressure.Decimal.Shortest

/-!
Taking values out of a TOML document. The first fault in the order of the document counts.
-/
namespace HeapPressure.Toml

open Document (Expected Found Problem)

namespace Node

/-- A date or time counts as a map. -/
def found : Node → Found
  | .leaf (.string s) _ => .string s
  | .leaf (.integer n) _ => .integer n
  | .leaf (.float x) _ => .real (Decimal.textOf .plain x)
  | .leaf (.boolean b) _ => .boolean b
  | .leaf .moment _ => .map
  | .array _ _ => .sequence
  | .tables _ => .sequence
  | .inlined _ => .map
  | .table _ => .map

def refuse {α : Type} (n : Node) (expected : Expected) : Except Fault α :=
  .error ⟨.wrongType n.found expected, n.span?⟩

def unsigned64 (n : Node) : Except Fault UInt64 :=
  match n with
  | .leaf (.integer (.ofNat k)) _ => .ok k.toUInt64
  | .leaf (.integer i) span => .error ⟨.outOfRange i .unsigned64, some span⟩
  | _ => n.refuse .unsigned64

def text (expected : Expected) (n : Node) : Except Fault String :=
  match n with
  | .leaf (.string s) _ => .ok s
  | _ => n.refuse expected

def named {α : Type} (ofName? : String → Option α) (known : List String) (name : String)
    (span : Span) : Except Fault α :=
  match ofName? name with
  | some a => .ok a
  | none => .error ⟨.unknownVariant name known, some span⟩

/-- A variant holds nothing; an empty table or array stands for that. -/
def holdsNothing : Node → Except Fault Unit
  | .leaf v span => .error ⟨.variantHolds v.kind, some span⟩
  | .array items span => if items.isEmpty then .ok () else .error ⟨.variantTableHolds, some span⟩
  | .tables items =>
    if items.isEmpty then .ok () else .error ⟨.variantArrayHolds, tablesSpan? items⟩
  | .inlined t => if t.entries.isEmpty then .ok () else .error ⟨.variantTableHolds, t.span⟩
  | .table t => if t.entries.isEmpty then .ok () else .error ⟨.variantTableHolds, t.span⟩

private def tableVariant {α : Type} (ofName? : String → Option α) (known : List String)
    (t : Table) : Except Fault α :=
  match t.entries with
  | [] => .error ⟨.emptyVariant, t.span⟩
  | [(key, content)] => do
    let a ← named ofName? known key.name key.span
    match content.holdsNothing with
    | .ok () => .ok a
    | .error f => .error (f.within t.span)
  | _ => .error ⟨.manyVariants, t.span⟩

/-- A variant is a name, or a table whose one key is the name. -/
def variant {α : Type} (ofName? : String → Option α) (known : List String) (n : Node) :
    Except Fault α :=
  match n with
  | .leaf (.string name) span => named ofName? known name span
  | .inlined t => tableVariant ofName? known t
  | .table t => tableVariant ofName? known t
  | _ => .error ⟨.notVariant, n.span?⟩

end Node

/-- Reads the value of an entry. A fault without a place of its own lies at the value, or at the
key when the value has no place either. -/
def readEntry {α : Type} (read : Node → Except Fault α) (key : Key) (value : Node) :
    Except Fault α :=
  match read value with
  | .ok a => .ok a
  | .error f => .error (f.within (value.span?.or (some key.span)))

end HeapPressure.Toml
