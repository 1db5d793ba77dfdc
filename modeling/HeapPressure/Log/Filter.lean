import HeapPressure.Log.Event
import HeapPressure.Text.Blank
import HeapPressure.Text.Regular
import HeapPressure.Text.Word

/-!
Log filters: comma-separated directives, each a level, a target, or both, where spans and fields
can be asked for in brackets. Of the directives that cover an event, the one with the longest
target decides.
-/
namespace HeapPressure.Log

/-- Asks for a field, perhaps of a certain value. -/
structure FieldTest where
  name : String
  value : Option String
deriving DecidableEq

/-- Without a target it covers every target; without a level it lets nothing through. -/
structure Directive where
  target : Option String
  span : Option String
  field : Option FieldTest
  level : Option Level
deriving DecidableEq

abbrev Filter := List Directive

namespace Directive

def ofLevel (l : Option Level) : Directive := ⟨none, none, none, l⟩

private def number? (s : List Char) : Option Nat :=
  let digits :=
    match s with
    | '+' :: cs => cs
    | cs => cs
  if digits.isEmpty || !digits.all Char.isDigit then none
  else some (digits.foldl (fun n d => n * 10 + (d.toNat - 48)) 0)

/-- A level by number, 0 being off, or by name in any case. -/
def levelOf? (s : List Char) : Option (Option Level) :=
  match number? s with
  | some 0 => some none
  | some 1 => some (some .error)
  | some 2 => some (some .warn)
  | some 3 => some (some .info)
  | some 4 => some (some .debug)
  | some 5 => some (some .trace)
  | _ =>
    let word := String.ofList s
    if lowered word == "off" then some none
    else (Level.ofNameIgnoringCase? word).map some

/-- The characters that a directive may begin with, but for a bracket. -/
def mayBegin (c : Char) : Bool :=
  Text.isLetterOrNumber c || c == '-' || c == ':' || c == '_'

/-- What follows the first `n` bytes, if they end between characters. -/
def dropBytes? : List Char → Nat → Option (List Char)
  | cs, 0 => some cs
  | [], _ + 1 => none
  | c :: cs, n => if c.utf8Size ≤ n then dropBytes? cs (n - c.utf8Size) else none

/-- The first `n` bytes, if they end between characters. -/
def takeBytes? : List Char → Nat → Option (List Char)
  | _, 0 => some []
  | [], _ + 1 => none
  | c :: cs, n =>
    if c.utf8Size ≤ n then (takeBytes? cs (n - c.utf8Size)).map (c :: ·) else none

def byteCount (cs : List Char) : Nat := cs.foldl (fun n c => n + c.utf8Size) 0

/-- A directive while it is read. The parts are found in the text without blanks around it, but
cut from the same places of the text as given. -/
structure Source where
  given : List Char
  trimmed : List Char

namespace Source

/-- The place where `rest`, the end of the trimmed text, begins. -/
def place (s : Source) (rest : List Char) : Nat := byteCount s.trimmed - byteCount rest

/-- The part from where `rest` begins to where `after` does. -/
def part? (s : Source) (rest after : List Char) : Option String := do
  let cs ← takeBytes? (← dropBytes? s.given (s.place rest)) (s.place after - s.place rest)
  pure (String.ofList cs)

/-- All that is given from where `rest` begins. -/
def end? (s : Source) (rest : List Char) : Option (List Char) := dropBytes? s.given (s.place rest)

/-- Reads the level, without which everything is let through. -/
def level? (s : Source) (rest : List Char) : Option (Option Level) := do
  let cs ← s.end? rest
  if cs.isEmpty then pure (some .trace) else levelOf? cs

/-- What follows the brackets: nothing, or a level. -/
def tail? (s : Source) (target span : Option String) (field : Option FieldTest) :
    List Char → Option Directive
  | [] => some ⟨target, span, field, some .trace⟩
  | '=' :: rest => (s.level? rest).map fun l => ⟨target, span, field, l⟩
  | _ => none

/-- A decimal number with or without a sign, or a word for one that has no digits. -/
def isNumeral (cs : List Char) : Bool :=
  let unsigned :=
    match cs with
    | '+' :: cs => cs
    | '-' :: cs => cs
    | cs => cs
  let whole := unsigned.takeWhile Char.isDigit
  let rest := unsigned.drop whole.length
  let (fraction, rest) :=
    match rest with
    | '.' :: cs => (cs.takeWhile Char.isDigit, cs.dropWhile Char.isDigit)
    | cs => ([], cs)
  let ends :=
    match rest with
    | [] => true
    | e :: '+' :: digits => e.toLower == 'e' && !digits.isEmpty && digits.all Char.isDigit
    | e :: '-' :: digits => e.toLower == 'e' && !digits.isEmpty && digits.all Char.isDigit
    | e :: digits => e.toLower == 'e' && !digits.isEmpty && digits.all Char.isDigit
  ["inf", "infinity", "nan"].contains (lowered (String.ofList unsigned))
    || ends && !(whole.isEmpty && fraction.isEmpty)

/-- The value asked for is what stands between the first two equal signs: a number, or a regular
expression. -/
def fieldTest? (text : String) : Option FieldTest :=
  match text.toList.splitOn '=' with
  | [] => none
  | [name] => if name.isEmpty then none else some ⟨String.ofList name, none⟩
  | name :: value :: _ =>
    if isNumeral value || Text.Regular.isExpression value then
      some ⟨String.ofList name, some (String.ofList value)⟩
    else none

/-- What stands in brackets: the name of a span, and a field in braces behind it. -/
def brackets? (s : Source) (target : Option String) (inner : List Char) : Option Directive :=
  match inner.dropWhile fun c => c != ']' && c != '\x7b' with
  | ']' :: rest => do
    let span ← s.part? inner (']' :: rest)
    s.tail? target (some span) none rest
  | opening :: braced => do
    let span ← s.part? inner (opening :: braced)
    let behind := braced.dropWhile (· != '\x7d')
    let field ← fieldTest? (← s.part? braced behind)
    match behind with
    | _ :: ']' :: rest => s.tail? target (if span.isEmpty then none else some span) field rest
    | _ => none
  | [] => none

/-- Reads a directive. A word that is no level is a target, and a target without a level is let
through entirely. -/
def directive? (s : Source) : Option Directive :=
  match s.trimmed with
  | [] => none
  | '[' :: inner => s.brackets? none inner
  | c :: _ =>
    if !mayBegin c then none
    else
      match s.trimmed.dropWhile fun c => c != '=' && c != '[' with
      | [] =>
        match levelOf? s.given with
        | some l => some (.ofLevel l)
        | none => some ⟨some (String.ofList s.given), none, none, some .trace⟩
      | sign :: rest => do
        let target ← s.part? s.trimmed (sign :: rest)
        if sign == '=' then (s.level? rest).map fun l => ⟨some target, none, none, l⟩
        else s.brackets? (some target) rest

end Source

def parse? (s : List Char) : Option Directive := Source.directive? ⟨s, Text.trim s⟩

/-- Events lie in no span, and the values of their fields are not asked for: a directive that
wants either covers none. -/
def covers (d : Directive) (target : String) (fields : List String) : Bool :=
  d.span.isNone
    && (match d.target with
      | none => true
      | some t => t.toList.isPrefixOf target.toList)
    && (match d.field with
      | none => true
      | some f => f.value.isNone && fields.contains f.name)

/-- How closely a directive describes the targets it covers. -/
def closeness (d : Directive) : Nat :=
  match d.target with
  | none => 0
  | some t => t.utf8ByteSize + 1

def fieldName (d : Directive) : String :=
  match d.field with
  | none => ""
  | some f => f.name

/-- Whether `d` goes before `b`, which stands further to the left: its target is longer, or as
long and its field not the lesser one. -/
def overrides (d b : Directive) : Bool :=
  b.closeness < d.closeness || (b.closeness == d.closeness && b.fieldName ≤ d.fieldName)

def lets (d : Directive) (level : Level) : Bool :=
  match d.level with
  | none => false
  | some l => level.rank ≤ l.rank

end Directive

namespace Filter

/-- The parts between commas that are not empty. -/
def parts (text : String) : List (List Char) :=
  (text.toList.splitOn ',').filter fun p => !p.isEmpty

/-- Every part has to be a directive. -/
def parse? (text : String) : Option Filter := (parts text).mapM Directive.parse?

/-- Parts that are no directives are dropped; if none is left, errors get through. -/
def parseLossy (text : String) : Filter :=
  let ds := (parts text).filterMap Directive.parse?
  if ds.isEmpty then [.ofLevel (some .error)] else ds

/-- The directive that decides on an event: the closest, and of equally close ones the last. -/
def deciding? (f : Filter) (target : String) (fields : List String) : Option Directive :=
  f.foldl
    (fun best d =>
      if d.covers target fields then
        match best with
        | some b => if d.overrides b then some d else some b
        | none => some d
      else best)
    none

def enables (f : Filter) (level : Level) (target : String) (fields : List String) : Bool :=
  match f.deciding? target fields with
  | some d => d.lets level
  | none => false

end Filter

/-- The filter of a component: its level for every target, and for its own, in whose name
underscores stand for hyphens. -/
def filterDirective (component : String) (level : Level) : String :=
  level.label ++ "," ++ component.map (fun c => if c = '-' then '_' else c) ++ "=" ++ level.label

/-- The filter in force: the one from the environment if all of it can be read, else the
component's. -/
def Filter.choose (environment : Option String) (component : String) (level : Level) : Filter :=
  match environment.bind Filter.parse? with
  | some f => f
  | none => Filter.parseLossy (filterDirective component level)

end HeapPressure.Log
