/-!
The words of a shell script. A word is a row of pieces, each literal, quoted, or to be worked out
when the command runs.
-/
namespace HeapPressure.Shell

/-- What a parameter in braces becomes. Those with `nullToo` take an empty value for none. -/
inductive Change where
  | keep
  | length
  | fallback (nullToo : Bool)
  | assign (nullToo : Bool)
  | replace (nullToo : Bool)
  | demand (nullToo : Bool)
  | cutFront (longest : Bool)
  | cutBack (longest : Bool)
  | bad
deriving DecidableEq

inductive Piece where
  | literal (s : List Char)
  | quoted (s : List Char)
  | parameter (name : String) (change : Change) (operand : List Piece) (inQuotes : Bool)
  | arithmetic (text : List Piece) (inQuotes : Bool)
  | output (script : List Char) (inQuotes : Bool)

abbrev Word := List Piece

/-- What is wrong with a script. -/
inductive Fault where
  | openQuote
  | openBackquote
  | openBrace
  | openArithmetic
  | badFunctionName
  | badLoopVariable
  | unexpected (found : String) (expected : Option String)
deriving DecidableEq

def Fault.message : Fault → String
  | .openQuote => "Unterminated quoted string"
  | .openBackquote => "EOF in backquote substitution"
  | .openBrace => "Missing '\x7d'"
  | .openArithmetic => "Missing '))'"
  | .badFunctionName => "Bad function name"
  | .badLoopVariable => "Bad for loop variable"
  | .unexpected found none => found ++ " unexpected"
  | .unexpected found (some expected) => found ++ " unexpected (expecting " ++ expected ++ ")"

def isNameStart (c : Char) : Bool := c.isAlpha || c == '_'

def isNameChar (c : Char) : Bool := c.isAlphanum || c == '_'

def isName (s : List Char) : Bool := s.head?.any isNameStart && s.all isNameChar

def isBlank (c : Char) : Bool := c == ' ' || c == '\t'

/-- Characters that end a word. -/
def endsWord (c : Char) : Bool :=
  isBlank c || c == '\n' || c == ';' || c == '&' || c == '|' || c == '<' || c == '>' || c == '('
    || c == ')'

/-- The text up to the parenthesis that closes `depth` open ones, and what follows it. -/
def balanced (depth : Nat) (quote : Option Char) : List Char → Option (List Char × List Char)
  | [] => none
  | '\\' :: c :: cs =>
    if quote == some '\'' then
      (balanced depth (if c == '\'' then none else quote) cs).map fun r => ('\\' :: c :: r.1, r.2)
    else (balanced depth quote cs).map fun r => ('\\' :: c :: r.1, r.2)
  | c :: cs =>
    match quote with
    | some q =>
      (balanced depth (if c == q then none else some q) cs).map fun r => (c :: r.1, r.2)
    | none =>
      if c == '\'' || c == '\"' then (balanced depth (some c) cs).map fun r => (c :: r.1, r.2)
      else if c == '(' then (balanced (depth + 1) none cs).map fun r => (c :: r.1, r.2)
      else if c == ')' then
        match depth with
        | 0 => some ([], cs)
        | depth + 1 => (balanced depth none cs).map fun r => (c :: r.1, r.2)
      else (balanced depth none cs).map fun r => (c :: r.1, r.2)

private def isSpecial (c : Char) : Bool :=
  c == '?' || c == '$' || c == '!' || c == '#' || c == '@' || c == '*' || c == '-' || c.isDigit

/-- The name of a parameter in braces, and what follows it. -/
def parameterName (cs : List Char) : List Char × List Char :=
  let name :=
    match cs with
    | [] => []
    | c :: _ =>
      if isNameStart c then cs.takeWhile isNameChar
      else if c.isDigit then cs.takeWhile Char.isDigit
      else if isSpecial c then [c]
      else []
  (name, cs.drop name.length)

/-- What the signs behind a name ask for, and the operand behind them. -/
def changeOf (cs : List Char) : Change × List Char :=
  match cs with
  | '\x7d' :: _ => (.keep, cs)
  | ':' :: '-' :: rest => (.fallback true, rest)
  | ':' :: '=' :: rest => (.assign true, rest)
  | ':' :: '+' :: rest => (.replace true, rest)
  | ':' :: '?' :: rest => (.demand true, rest)
  | '-' :: rest => (.fallback false, rest)
  | '=' :: rest => (.assign false, rest)
  | '+' :: rest => (.replace false, rest)
  | '?' :: rest => (.demand false, rest)
  | '#' :: '#' :: rest => (.cutFront true, rest)
  | '#' :: rest => (.cutFront false, rest)
  | '%' :: '%' :: rest => (.cutBack true, rest)
  | '%' :: rest => (.cutBack false, rest)
  | _ => (.bad, cs)

/-- Whether the operand is a pattern, in which quotes count even inside quotes. -/
def Change.takesPattern : Change → Bool
  | .cutFront _ => true
  | .cutBack _ => true
  | _ => false

/-- The text between backquotes. -/
def backquoted : List Char → Except Fault (List Char × List Char)
  | [] => .error .openBackquote
  | '\x60' :: cs => .ok ([], cs)
  | '\\' :: c :: cs => do
    let (s, rest) ← backquoted cs
    .ok (if c == '\x60' || c == '\\' || c == '$' then c :: s else '\\' :: c :: s, rest)
  | c :: cs => do
    let (s, rest) ← backquoted cs
    .ok (c :: s, rest)

/-- Puts a piece in front, joined to one of its kind. -/
def Piece.onto (p : Piece) (w : Word) : Word :=
  match p, w with
  | .literal a, .literal b :: w => .literal (a ++ b) :: w
  | .quoted a, .quoted b :: w => .quoted (a ++ b) :: w
  | p, w => p :: w

/-- Where a text is read: inside double quotes, in a text without an end of its own, where such
quotes mean nothing, or in an operand, which is quoted as a whole or not. -/
inductive Place where
  | quotes
  | body
  | operand (quoted : Bool)
deriving DecidableEq

namespace Place

/-- The characters that a backslash takes the meaning of. -/
def escapes (p : Place) (c : Char) : Bool :=
  match p with
  | .operand false => true
  | .operand true => c == '$' || c == '\x60' || c == '\"' || c == '\\' || c == '\x7d'
  | .quotes => c == '$' || c == '\x60' || c == '\"' || c == '\\'
  | .body => c == '$' || c == '\x60' || c == '\\'

def isQuoted (p : Place) : Bool := p != .operand false

def piece (p : Place) (c : Char) : Piece := if p.isQuoted then .quoted [c] else .literal [c]

end Place

mutual

/-- The pieces up to the end that the place has. -/
def text : Nat → Place → List Char → Except Fault (Word × List Char)
  | 0, _, _ => .error .openQuote
  | fuel + 1, place, cs =>
    let further (p : Piece) (rest : List Char) : Except Fault (Word × List Char) := do
      let (w, rest) ← text fuel place rest
      .ok (p.onto w, rest)
    match cs with
    | [] =>
      match place with
      | .quotes => .error .openQuote
      | .body => .ok ([], [])
      | .operand _ => .error .openBrace
    | '\\' :: '\n' :: rest => text fuel place rest
    | '\\' :: c :: rest => further (.quoted (if place.escapes c then [c] else ['\\', c])) rest
    | '$' :: rest => do
      let (p, rest) ← dollar fuel place.isQuoted rest
      further p rest
    | '\x60' :: rest => do
      let (script, rest) ← backquoted rest
      further (.output script place.isQuoted) rest
    | c :: rest =>
      match place, c with
      | .quotes, '\"' => .ok ([], rest)
      | .operand _, '\x7d' => .ok ([], rest)
      | .operand true, '\"' => text fuel place rest
      | .operand false, '\"' => do
        let (q, rest) ← text fuel .quotes rest
        let (w, rest) ← text fuel place rest
        .ok ((if q.isEmpty then [.quoted []] else q) ++ w, rest)
      | .operand false, '\'' =>
        let s := rest.takeWhile (· != '\'')
        further (.quoted s) (rest.drop (s.length + 1))
      | _, _ => further (place.piece c) rest

/-- What a dollar sign begins. -/
def dollar : Nat → Bool → List Char → Except Fault (Piece × List Char)
  | 0, _, _ => .error .openQuote
  | fuel + 1, inQuotes, cs =>
    match cs with
    | '\x7b' :: '#' :: c :: rest =>
      let (name, behind) := parameterName (c :: rest)
      match name.isEmpty, behind with
      | false, '\x7d' :: rest => .ok (.parameter (String.ofList name) .length [] inQuotes, rest)
      | _, _ => braced fuel inQuotes ('#' :: c :: rest)
    | '\x7b' :: rest => braced fuel inQuotes rest
    | '(' :: '(' :: rest =>
      match balanced 1 none rest with
      | some (s, rest) => do
        let (w, _) ← text fuel .body s.dropLast
        .ok (.arithmetic w inQuotes, rest)
      | none => .error .openArithmetic
    | '(' :: rest =>
      match balanced 0 none rest with
      | some (s, rest) => .ok (.output s inQuotes, rest)
      | none => .error (.unexpected "end of file" (some "\")\""))
    | c :: rest =>
      if isNameStart c then
        let name := cs.takeWhile isNameChar
        .ok (.parameter (String.ofList name) .keep [] inQuotes, cs.drop name.length)
      else if isSpecial c then .ok (.parameter (String.singleton c) .keep [] inQuotes, rest)
      else .ok ((if inQuotes then .quoted ['$'] else .literal ['$']), cs)
    | [] => .ok ((if inQuotes then .quoted ['$'] else .literal ['$']), [])

/-- A parameter behind its opening brace. -/
def braced : Nat → Bool → List Char → Except Fault (Piece × List Char)
  | 0, _, _ => .error .openBrace
  | fuel + 1, inQuotes, cs => do
    let (name, rest) := parameterName cs
    let (change, rest) := changeOf rest
    let (w, rest) ← text fuel (.operand (inQuotes && !change.takesPattern)) rest
    .ok (.parameter (String.ofList name) (if name.isEmpty then .bad else change) w inQuotes, rest)

end

/-- The pieces of a word. -/
def word : Nat → List Char → Except Fault (Word × List Char)
  | 0, _ => .error .openQuote
  | fuel + 1, cs =>
    let further (p : Piece) (rest : List Char) : Except Fault (Word × List Char) := do
      let (w, rest) ← word fuel rest
      .ok (p.onto w, rest)
    match cs with
    | [] => .ok ([], [])
    | '\'' :: rest =>
      let s := rest.takeWhile (· != '\'')
      match rest.drop s.length with
      | [] => .error .openQuote
      | _ :: rest => further (.quoted s) rest
    | '\"' :: rest => do
      let (q, rest) ← text (2 * rest.length + 2) .quotes rest
      let (w, rest) ← word fuel rest
      .ok ((if q.isEmpty then [.quoted []] else q) ++ w, rest)
    | '\\' :: '\n' :: rest => word fuel rest
    | '\\' :: c :: rest => further (.quoted [c]) rest
    | '$' :: rest => do
      let (p, rest) ← dollar (2 * rest.length + 2) false rest
      further p rest
    | '\x60' :: rest => do
      let (script, rest) ← backquoted rest
      further (.output script false) rest
    | c :: rest => if endsWord c then .ok ([], cs) else further (.literal [c]) rest

/-- The text of a word without quotes and expansions. -/
def Word.plain? : Word → Option String
  | [.literal s] => some (String.ofList s)
  | _ => none

end HeapPressure.Shell
