import HeapPressure.Toml.Number
import HeapPressure.Toml.Assembly

/-!
Reading TOML documents. A text is a document or it is not; what it is read for comes later.
-/
namespace HeapPressure.Toml

/-- Arrays and tables in braces nest this deep at most. -/
def nestingLimit : Nat := 79

/-- Dotted keys have fewer parts than this. -/
def keyPartLimit : Nat := 80

def isBareKeyChar (c : Char) : Bool := c.isAlphanum || c == '_' || c == '-'

/-- One part of a key, quoted or bare. -/
def keyPart (cs : List Char) : Option (Key × List Char) := do
  let (name, rest) ←
    match cs with
    | '\"' :: cs => basicString cs
    | '\'' :: cs => literalString cs
    | _ =>
      let bare := cs.takeWhile isBareKeyChar
      if bare.isEmpty then none else some (bare, cs.dropWhile isBareKeyChar)
  pure (⟨String.ofList name, .between cs rest⟩, rest)

/-- The parts of a dotted key with the blanks around them: those in front, and the last. -/
def dottedKey : Nat → List Char → Option ((List Key × Key) × List Char)
  | 0, _ => none
  | fuel + 1, cs => do
    let (key, rest) ← keyPart (skipBlanks cs)
    match skipBlanks rest with
    | '.' :: rest =>
      let ((path, last), rest) ← dottedKey fuel rest
      pure ((key :: path, last), rest)
    | rest => pure (([], key), rest)

def key (cs : List Char) : Option ((List Key × Key) × List Char) := dottedKey (keyPartLimit - 1) cs

def word (text : String) (v : Scalar) (cs : List Char) : Option (Scalar × List Char) :=
  let w := text.toList
  if w.isPrefixOf cs then some (v, cs.drop w.length) else none

/-- A value that holds no others. -/
def scalar (cs : List Char) : Option (Scalar × List Char) :=
  match cs with
  | [] => none
  | '\"' :: _ => (string? cs).map fun r => (.string (String.ofList r.1), r.2)
  | '\'' :: _ => (string? cs).map fun r => (.string (String.ofList r.1), r.2)
  | 't' :: _ => word "true" (.boolean true) cs
  | 'f' :: _ => word "false" (.boolean false) cs
  | 'i' :: _ => word "inf" (.float (1.0 / 0.0)) cs
  | 'n' :: _ => word "nan" (.float (0.0 / 0.0)) cs
  | c :: _ => if isDigit c || c == '+' || c == '-' then number cs else none

mutual

/-- A value, with `depth` levels of nesting left. -/
def value : Nat → Nat → List Char → Option (Node × List Char)
  | 0, _, _ => none
  | fuel + 1, depth, cs =>
    match cs with
    | '[' :: rest =>
      match depth with
      | 0 => none
      | depth + 1 => do
        let (items, rest) ← arrayItems fuel depth rest
        pure (.array items (.between cs rest), rest)
    | '\x7b' :: rest =>
      match depth with
      | 0 => none
      | depth + 1 => do
        let (t, rest) ← inlinePairs fuel depth {} rest
        pure (.inlined { t with span := some (.between cs rest) }, rest)
    | _ => do
      let (v, rest) ← scalar cs
      pure (.leaf v (.between cs rest), rest)

/-- The items of an array behind its bracket or a comma. -/
def arrayItems : Nat → Nat → List Char → Option (List Node × List Char)
  | 0, _, _ => none
  | fuel + 1, depth, cs =>
    match skipFiller cs.length cs with
    | ']' :: rest => some ([], rest)
    | cs => do
      let (item, rest) ← value fuel depth cs
      match skipFiller rest.length rest with
      | ',' :: rest =>
        let (items, rest) ← arrayItems fuel depth rest
        pure (item :: items, rest)
      | ']' :: rest => pure ([item], rest)
      | _ => none

/-- The pairs of a table in braces; `t` holds those in front. -/
def inlinePairs : Nat → Nat → Table → List Char → Option (Table × List Char)
  | 0, _, _, _ => none
  | fuel + 1, depth, t, cs =>
    match t.entries, skipBlanks cs with
    | [], '\x7d' :: rest => some (t, rest)
    | _, cs => do
      let ((path, last), rest) ← key cs
      match rest with
      | '=' :: rest =>
        let (v, rest) ← value fuel depth (skipBlanks rest)
        let t ← setDotted true last v path t
        match skipBlanks rest with
        | ',' :: rest => inlinePairs fuel depth t rest
        | '\x7d' :: rest => pure (t, rest)
        | _ => none
      | _ => none

end

/-- A value of any depth allowed. -/
def anyValue (cs : List Char) : Option (Node × List Char) :=
  value (2 * cs.length + 2) nestingLimit cs

/-- A line behind its blanks: nothing, a comment, a header or a pair. -/
def line (cs : List Char) : Option (Option Line × List Char) :=
  match cs with
  | '#' :: _ => do pure (none, ← endLine? cs)
  | '\n' :: rest => some (none, rest)
  | '\r' :: _ => do pure (none, ← newline? cs)
  | '[' :: '[' :: rest => do
    let ((path, last), rest) ← key rest
    match rest with
    | ']' :: ']' :: rest =>
      pure (some (.tablesHeader path last (.between cs rest)), ← endLine? rest)
    | _ => none
  | '[' :: rest => do
    let ((path, last), rest) ← key rest
    match rest with
    | ']' :: rest => pure (some (.header path last (.between cs rest)), ← endLine? rest)
    | _ => none
  | _ => do
    let ((path, last), rest) ← key cs
    match rest with
    | '=' :: rest =>
      let (v, rest) ← anyValue (skipBlanks rest)
      pure (some (.pair path last v), ← endLine? rest)
    | _ => none

/-- The lines of a text; each takes at least one character. -/
def lines : Nat → List Char → Option (List Line)
  | 0, cs => if (skipBlanks cs).isEmpty then some [] else none
  | fuel + 1, cs =>
    match skipBlanks cs with
    | [] => some []
    | cs => do
      let (l, rest) ← line cs
      let ls ← lines fuel rest
      pure (l.toList ++ ls)

/-- A byte order mark in front does not count. -/
def dropMark : List Char → List Char
  | '\uFEFF' :: cs => cs
  | cs => cs

/-- Reads a document. -/
def read (text : String) : Option Table := do
  let cs := dropMark text.toList
  assemble (← lines cs.length cs)

end HeapPressure.Toml
