import HeapPressure.Text.Blank
import HeapPressure.Text.Hexadecimal
import HeapPressure.Text.Word

/-!
Regular expressions: which texts are one. Nothing is matched here. There are no tables of
characters behind the expressions: classes that would need one are refused, and so is
disregard of case unless bytes are matched. They stand between braces, so none that has braces
of its own is ever closed.
-/
namespace HeapPressure.Text.Regular

/-- How an expression is taken from some place on. -/
structure Modes where
  /-- Whether characters are matched; otherwise bytes are. -/
  characters : Bool := true
  anyCase : Bool := false
  /-- Whether blanks and comments are passed over. -/
  spaced : Bool := false

structure Reading where
  rest : List Char
  modes : Modes := {}
  /-- The names of groups so far. -/
  names : List (List Char) := []

abbrev Reader := StateT Reading Option

/-- What follows blanks and comments. -/
def behindBlanks (inComment : Bool) : List Char → List Char
  | [] => []
  | c :: cs =>
    if inComment then behindBlanks (c != '\n') cs
    else if c == '#' then behindBlanks true cs
    else if isBlank c then behindBlanks false cs
    else c :: cs

/-- Passes over what may stand between parts. -/
def settle : Reader Unit := modify fun r =>
  if r.modes.spaced then { r with rest := behindBlanks false r.rest } else r

def drop (n : Nat) : Reader Unit := modify fun r => { r with rest := r.rest.drop n }

def goTo (rest : List Char) : Reader Unit := modify fun r => { r with rest }

def head? : Reader (Option Char) := do pure (← get).rest.head?

/-- Goes on to the next character, and fails when there is none. -/
def next : Reader Unit := do
  drop 1
  settle
  guard (← head?).isSome

/-- What an escape or a plain character stands for. -/
inductive Atom where
  | literal (c : Char)
  /-- Digits, blanks or letters. -/
  | several
  /-- A place between characters. -/
  | place

/-- The characters from a place on whose code has so many digits. -/
def code : Nat → List Char → Reader Char
  | 0, digits => do (charOfHex? digits.reverse).elim failure pure
  | n + 1, digits => do
    match ← head? with
    | none => failure
    | some c =>
      guard (hexValue? c).isSome
      if n = 0 then do
        drop 1
        settle
      else next
      code n (c :: digits)

/-- The control characters with escapes of one letter. -/
def control? (c : Char) : Option Char :=
  match c with
  | 'a' => some '\x07'
  | 'f' => some '\x0c'
  | 'n' => some '\n'
  | 'r' => some '\r'
  | 't' => some '\t'
  | 'v' => some '\x0b'
  | _ => none

/-- Signs stand for themselves when they are escaped. -/
def isSign (c : Char) : Bool := c.toNat < 0x80 && !c.isAlphanum && c != '<' && c != '>'

/-- An escape, from its backslash on. A literal is given with whether it is a byte by its code. -/
def escape : Reader (Atom × Bool) := do
  drop 1
  let modes := (← get).modes
  match ← head? with
  | none => failure
  | some c =>
    let hexadecimal (digits : Nat) : Reader (Atom × Bool) := do
      next
      let written ← code digits []
      pure (.literal written, digits == 2)
    if c == 'x' then hexadecimal 2
    else if c == 'u' then hexadecimal 4
    else if c == 'U' then hexadecimal 8
    else do
      drop 1
      if isSign c then pure (.literal c, false)
      else if let some control := control? c then pure (.literal control, false)
      else if c == 'A' || c == 'z' then pure (.place, false)
      else if modes.characters then failure
      else if "bB<>".toList.contains c then pure (.place, false)
      else if "dsw".toList.contains c then pure (.several, false)
      else failure

/-- Whether a literal can be matched outside of classes. -/
def fits (m : Modes) (c : Char) (byCode : Bool) : Bool :=
  if m.characters then !m.anyCase else c.toNat < 0x80 || !byCode

namespace Class

/-- Whether a literal can be matched in a class. -/
def fits (m : Modes) (c : Char) : Bool := if m.characters then !m.anyCase else c.toNat < 0x80

def accept (a : Atom) : Reader Unit := do
  match a with
  | .literal c => guard (fits (← get).modes c)
  | .several => pure ()
  | .place => failure

def member : Reader Atom := do
  match ← head? with
  | none => failure
  | some '\\' => do pure (← escape).1
  | some c => do
    drop 1
    pure (.literal c)

/-- The character behind a hyphen and what may stand in between. -/
def afterHyphen (m : Modes) (cs : List Char) : Option Char :=
  if m.spaced then
    match cs.dropWhile isBlank with
    | '#' :: cs => (cs.dropWhile isBlank).head?
    | cs => cs.head?
  else cs.head?

/-- A member, or a range of two of them. -/
def range : Reader Unit := do
  let first ← member
  settle
  let r ← get
  let after := afterHyphen r.modes r.rest.tail
  match r.rest.head? with
  | none => failure
  | some c =>
    if c != '-' || after == some ']' || after == some '-' then accept first
    else do
      next
      match first, ← member with
      | .literal a, .literal b => do
        guard (a ≤ b)
        accept (.literal a)
        accept (.literal b)
      | _, _ => failure

def names : List String :=
  ["alnum", "alpha", "ascii", "blank", "cntrl", "digit", "graph", "lower", "print", "punct",
    "space", "upper", "word", "xdigit"]

/-- A class by its name, behind its opening bracket: whether it is negated, and what follows. -/
def named? : List Char → Option (Bool × List Char)
  | ':' :: cs =>
    let (negated, cs) :=
      match cs with
      | '^' :: cs => (true, cs)
      | cs => (false, cs)
    let name := cs.takeWhile (· != ':')
    match cs.drop name.length with
    | ':' :: ']' :: rest =>
      if names.contains (String.ofList name) then some (negated, rest) else none
    | _ => none
  | _ => none

/-- Hyphens at the beginning, each a member. -/
def hyphens : Nat → Reader (List Nat)
  | 0 => failure
  | fuel + 1 => do
    if (← head?) == some '-' then do
      accept (.literal '-')
      next
      pure (0 :: (← hyphens fuel))
    else pure []

/-- The members that a class begins with, from its bracket on: hyphens, or a closing bracket.
Bytes outside of a class are no text. -/
def opening (fuel : Nat) : Reader (List Nat) := do
  next
  if (← head?) == some '^' then do
    guard (← get).modes.characters
    next
  let members ← hyphens fuel
  if members.isEmpty && (← head?) == some ']' then do
    accept (.literal ']')
    next
    pure [0]
  else pure members

end Class

/-- How deep parts nest that stand side by side, given how deep each of them does. -/
def sideBySide : List Nat → Nat
  | [] => 0
  | [d] => d
  | ds => 1 + ds.foldl max 0

namespace Class

/-- How deep a class nests, with what stands in front of the last operator. -/
def depth (front : Option Nat) (members : List Nat) : Nat :=
  match front with
  | none => sideBySide members
  | some d => 1 + max d (sideBySide members)

/-- The rest of a class up to its closing bracket. -/
def body : Nat → Option Nat → List Nat → Reader Nat
  | 0, _, _ => failure
  | fuel + 1, front, members => do
    settle
    match (← get).rest with
    | [] => failure
    | ']' :: rest => do
      goTo rest
      pure (depth front members)
    | '&' :: '&' :: rest => do
      goTo rest
      body fuel (some (depth front members)) []
    | '-' :: '-' :: rest => do
      goTo rest
      body fuel (some (depth front members)) []
    | '~' :: '~' :: rest => do
      goTo rest
      body fuel (some (depth front members)) []
    | '[' :: inner =>
      match named? inner with
      | some (negated, rest) => do
        let m := (← get).modes
        guard (if m.characters then !m.anyCase else !negated)
        goTo rest
        body fuel front (0 :: members)
      | none => do
        let d ← body fuel none (← opening fuel)
        body fuel front ((d + 1) :: members)
    | _ => do
      range
      body fuel front (0 :: members)

end Class

/-- The name of a group up to its closing mark, and what follows. -/
def groupName? (cs : List Char) : Option (List Char × List Char) :=
  let name := cs.takeWhile (· != '>')
  let goesOn (c : Char) : Bool := isLetterOrNumber c || "_.[]".toList.contains c
  match name, cs.drop name.length with
  | c :: more, _ :: rest =>
    if (isLetter c || c == '_') && more.all goesOn then some (name, rest) else none
  | _, _ => none

/-- The modes that flags change, up to the sign that ends them, and what follows. Flags come once
each, and a hyphen turns those behind it off. -/
def flags? (m : Modes) (seen : List Char) : List Char → Option (Modes × List Char × List Char)
  | [] => none
  | c :: cs =>
    if c == ':' || c == ')' then
      if seen.head? == some '-' then none else some (m, seen, c :: cs)
    else if seen.contains c then none
    else
      let on := !seen.contains '-'
      match c with
      | 'i' => flags? { m with anyCase := on } (c :: seen) cs
      | 'u' => flags? { m with characters := on } (c :: seen) cs
      | 'x' => flags? { m with spaced := on } (c :: seen) cs
      | c => if "msUR-".toList.contains c then flags? m (c :: seen) cs else none

/-- The parts read so far, the last first, by how deep they nest. Flags are parts that nothing
can be repeated of. -/
structure Gathered where
  parts : List (Option Nat) := []
  /-- The alternatives in front of the present one. -/
  alternatives : List Nat := []

namespace Gathered

def add (d : Nat) (g : Gathered) : Gathered := { g with parts := some d :: g.parts }

def addFlags (g : Gathered) : Gathered := { g with parts := none :: g.parts }

def alternative (g : Gathered) : Nat := sideBySide (g.parts.map fun d => d.getD 0)

def alternate (g : Gathered) : Gathered where
  alternatives := g.alternative :: g.alternatives

def depth (g : Gathered) : Nat := sideBySide (g.alternative :: g.alternatives)

end Gathered

/-- The rest of an expression, or of a group up to its closing sign. -/
def contents : Nat → Bool → Gathered → Reader Nat
  | 0, _, _ => failure
  | fuel + 1, inGroup, g => do
    settle
    let r ← get
    let group (rest : List Char) (modes : Modes) : Reader Nat := do
      modify fun r => { r with rest, modes }
      let d ← contents fuel true {}
      modify fun inner => { inner with modes := r.modes }
      contents fuel inGroup (g.add (d + 1))
    let namedGroup (cs : List Char) : Reader Nat :=
      match groupName? cs with
      | none => failure
      | some (name, rest) => do
        guard (!r.names.contains name)
        modify fun r => { r with names := name :: r.names }
        group rest r.modes
    match r.rest with
    | [] => do
      guard !inGroup
      pure g.depth
    | ')' :: rest => do
      guard inGroup
      goTo rest
      pure g.depth
    | '|' :: rest => do
      goTo rest
      contents fuel inGroup g.alternate
    | '(' :: rest =>
      match if r.modes.spaced then behindBlanks false rest else rest with
      | '?' :: '<' :: '=' :: _ => failure
      | '?' :: '<' :: '!' :: _ => failure
      | '?' :: 'P' :: '<' :: cs => namedGroup cs
      | '?' :: '<' :: cs => namedGroup cs
      | '?' :: cs =>
        match flags? r.modes [] cs with
        | some (modes, _, ':' :: rest) => group rest modes
        | some (modes, _ :: _, _ :: rest) => do
          modify fun r => { r with rest, modes }
          contents fuel inGroup g.addFlags
        | _ => failure
      | rest => group rest r.modes
    | '[' :: _ => do
      let d ← Class.body fuel none (← Class.opening fuel)
      contents fuel inGroup (g.add (d + 1))
    | '\\' :: _ => do
      match ← escape with
      | (.literal c, byCode) => guard (fits r.modes c byCode)
      | _ => pure ()
      contents fuel inGroup (g.add 0)
    | '.' :: rest => do
      guard r.modes.characters
      goTo rest
      contents fuel inGroup (g.add 0)
    | c :: rest =>
      if c == '*' || c == '+' || c == '?' then
        match g.parts with
        | some d :: parts => do
          goTo (if rest.head? == some '?' then rest.tail else rest)
          contents fuel inGroup { g with parts := some (d + 1) :: parts }
        | _ => failure
      else do
        guard (c != '\x7b' && (c == '^' || c == '$' || fits r.modes c false))
        goTo rest
        contents fuel inGroup (g.add 0)

/-- How deep an expression may nest. -/
def maxDepth : Nat := 250

def isExpression (s : List Char) : Bool :=
  match (contents (s.length + 1) false {}).run { rest := s } with
  | some (depth, _) => depth ≤ maxDepth
  | none => false

end HeapPressure.Text.Regular
