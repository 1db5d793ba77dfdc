/-!
Arithmetic in scripts: integers of 64 bits under the usual operators, the tighter ones first, and
assignments to names.
-/
namespace HeapPressure.Shell.Arithmetic

inductive Symbol where
  | number (n : Int)
  | name (s : String)
  | mark (s : String)
deriving DecidableEq

inductive Expr where
  | number (n : Int64)
  | name (s : String)
  | unary (mark : String) (e : Expr)
  | binary (mark : String) (a b : Expr)
  | choose (condition yes no : Expr)
  /-- With an operator in front of the equal sign, or an empty text. -/
  | assign (name : String) (mark : String) (e : Expr)

inductive Fault where
  | noPrimary
  | noEnd
  | noParenthesis
  | noColon
  | divisionByZero
  /-- A quotient that is no integer of 64 bits, which ends the process. -/
  | quotientTooLarge
  /-- The value of a name that is no number. -/
  | noNumber (text : String)
deriving DecidableEq

def Fault.message (expression : String) : Fault → String
  | .noNumber text => "Illegal number: " ++ text
  | f =>
    let cause :=
      match f with
      | .noPrimary => "expecting primary"
      | .noEnd => "expecting EOF"
      | .noParenthesis => "expecting ')'"
      | .noColon => "expecting ':'"
      | _ => "division by zero"
    "arithmetic expression: " ++ cause ++ ": \"" ++ expression ++ "\""

/-- Longer marks come first, so that they are not read as several. -/
def marks : List String :=
  ["<<=", ">>=", "<=", ">=", "==", "!=", "&&", "||", "<<", ">>", "+=", "-=", "*=", "/=", "%=",
    "&=", "^=", "|=", "+", "-", "*", "/", "%", "<", ">", "(", ")", "!", "~", "&", "|", "^", "?",
    ":", "="]

def assignments : List String := ["=", "+=", "-=", "*=", "/=", "%=", "<<=", ">>=", "&=", "^=", "|="]

def digitIn (base : Nat) (c : Char) : Option Nat :=
  let n :=
    if c.isDigit then c.toNat - 48
    else if 'a' ≤ c && c ≤ 'f' then c.toNat - 87
    else if 'A' ≤ c && c ≤ 'F' then c.toNat - 55
    else base
  if n < base then some n else none

def digitsIn (base : Nat) (cs : List Char) : Nat × List Char :=
  let digits := cs.takeWhile fun c => (digitIn base c).isSome
  (digits.foldl (fun n c => n * base + (digitIn base c).getD 0) 0, cs.drop digits.length)

/-- The blanks in front of a number. -/
def isSpace (c : Char) : Bool := c == ' ' || ('\t' ≤ c && c ≤ '\r')

/-- A number: with a zero in front octal, with a zero and an x hexadecimal. -/
def numeral (cs : List Char) : Nat × List Char :=
  match cs with
  | '0' :: x :: c :: rest =>
    if (x == 'x' || x == 'X') && (digitIn 16 c).isSome then digitsIn 16 (c :: rest)
    else digitsIn 8 cs
  | '0' :: _ => digitsIn 8 cs
  | _ => digitsIn 10 cs

def symbols : Nat → List Char → Except Fault (List Symbol)
  | 0, _ => .ok []
  | fuel + 1, cs =>
    match cs with
    | [] => .ok []
    | c :: rest =>
      if c == ' ' || c == '\t' || c == '\n' then symbols fuel rest
      else if c.isDigit then do
        let (n, rest) := numeral cs
        let ss ← symbols fuel rest
        .ok (.number n :: ss)
      else if c.isAlpha || c == '_' then do
        let name := cs.takeWhile fun c => c.isAlphanum || c == '_'
        let ss ← symbols fuel (cs.drop name.length)
        .ok (.name (String.ofList name) :: ss)
      else
        match marks.find? fun m => m.toList.isPrefixOf cs with
        | some m => do
          let ss ← symbols fuel (cs.drop m.length)
          .ok (.mark m :: ss)
        | none => do
          let ss ← symbols fuel rest
          .ok (.mark (String.singleton c) :: ss)

/-- How tightly a binary operator binds. -/
def precedence (mark : String) : Option Nat :=
  match mark with
  | "||" => some 1
  | "&&" => some 2
  | "|" => some 3
  | "^" => some 4
  | "&" => some 5
  | "==" | "!=" => some 6
  | "<" | "<=" | ">" | ">=" => some 7
  | "<<" | ">>" => some 8
  | "+" | "-" => some 9
  | "*" | "/" | "%" => some 10
  | _ => none

mutual

/-- An expression with the loosest operators: an assignment, a choice, or neither. -/
def whole : Nat → List Symbol → Except Fault (Expr × List Symbol)
  | 0, _ => .error .noPrimary
  | fuel + 1, ss =>
    match ss with
    | .name s :: .mark m :: rest =>
      if assignments.contains m then do
        let (e, rest) ← whole fuel rest
        .ok (.assign s (m.dropEnd 1).toString e, rest)
      else choice fuel ss
    | _ => choice fuel ss

def choice : Nat → List Symbol → Except Fault (Expr × List Symbol)
  | 0, _ => .error .noPrimary
  | fuel + 1, ss => do
    let (condition, rest) ← binary fuel 0 ss
    match rest with
    | .mark "?" :: rest =>
      let (yes, rest) ← whole fuel rest
      match rest with
      | .mark ":" :: rest =>
        let (no, rest) ← choice fuel rest
        .ok (.choose condition yes no, rest)
      | _ => .error .noColon
    | _ => .ok (condition, rest)

/-- An expression whose operators bind at least as tightly as `least`. -/
def binary : Nat → Nat → List Symbol → Except Fault (Expr × List Symbol)
  | 0, _, _ => .error .noPrimary
  | fuel + 1, least, ss => do
    let (a, ss) ← unary fuel ss
    further fuel least a ss

def further : Nat → Nat → Expr → List Symbol → Except Fault (Expr × List Symbol)
  | 0, _, _, _ => .error .noPrimary
  | fuel + 1, least, a, ss =>
    match ss with
    | .mark m :: rest =>
      match precedence m with
      | some p =>
        if p < least then .ok (a, ss)
        else do
          let (b, rest) ← binary fuel (p + 1) rest
          further fuel least (.binary m a b) rest
      | none => .ok (a, ss)
    | _ => .ok (a, ss)

def unary : Nat → List Symbol → Except Fault (Expr × List Symbol)
  | 0, _ => .error .noPrimary
  | fuel + 1, ss =>
    match ss with
    | .number n :: rest => .ok (.number (Int64.ofInt (min n 0x7FFFFFFFFFFFFFFF)), rest)
    | .name s :: rest => .ok (.name s, rest)
    | .mark "(" :: rest => do
      let (e, rest) ← whole fuel rest
      match rest with
      | .mark ")" :: rest => .ok (e, rest)
      | _ => .error .noParenthesis
    | .mark m :: rest =>
      if ["-", "+", "!", "~"].contains m then do
        let (e, rest) ← unary fuel rest
        .ok (.unary m e, rest)
      else .error .noPrimary
    | [] => .error .noPrimary

end

/-- Reads an expression; an empty one is zero. -/
def parse (text : List Char) : Except Fault Expr := do
  let ss ← symbols (text.length + 1) text
  if ss.isEmpty then .ok (.number 0)
  else
    match ← whole (8 * ss.length + 8) ss with
    | (e, []) => .ok e
    | _ => .error .noEnd

def truth (b : Bool) : Int64 := if b then 1 else 0

def combine (mark : String) (a b : Int64) : Except Fault Int64 :=
  match mark with
  | "|" => .ok (a ||| b)
  | "^" => .ok (a ^^^ b)
  | "&" => .ok (a &&& b)
  | "==" => .ok (truth (a == b))
  | "!=" => .ok (truth (a != b))
  | "<" => .ok (truth (a < b))
  | "<=" => .ok (truth (a ≤ b))
  | ">" => .ok (truth (b < a))
  | ">=" => .ok (truth (b ≤ a))
  | "<<" => .ok (a <<< b)
  | ">>" => .ok (a >>> b)
  | "+" => .ok (a + b)
  | "-" => .ok (a - b)
  | "*" => .ok (a * b)
  | _ =>
    if b = 0 then .error .divisionByZero
    else if b = -1 && a = Int64.minValue then .error .quotientTooLarge
    else .ok (if mark == "/" then a / b else a % b)

def applySign (mark : String) (a : Int64) : Int64 :=
  match mark with
  | "-" => -a
  | "!" => truth (a == 0)
  | "~" => ~~~a
  | _ => a

/-- The integer that a value is, if it is one; nothing counts as zero. -/
def integerOf (text : String) : Except Fault Int64 :=
  let cs := text.toList.dropWhile isSpace
  let (negative, digits) : Bool × List Char :=
    match cs with
    | '-' :: cs => (true, cs)
    | '+' :: cs => (false, cs)
    | cs => (false, cs)
  let (n, rest) := numeral digits
  let value : Int := if negative then -(n : Int) else n
  if cs.isEmpty then .ok 0
  else if rest.length == digits.length || !rest.all isSpace then .error (.noNumber text)
  else if value < -0x8000000000000000 || 0x8000000000000000 ≤ value then .error (.noNumber text)
  else .ok (Int64.ofInt value)

/-- Names that were assigned to while an expression was worked out, the latest first. -/
abbrev Assigned := List (String × Int64)

def valueOf (lookup : String → Option String) (s : String) :
    StateT Assigned (Except Fault) Int64 := do
  match (← get).lookup s with
  | some n => pure n
  | none => integerOf ((lookup s).getD "")

/-- The value of an expression. The second side of "and", "or" and a choice is left alone unless
it is needed. -/
def Expr.eval (lookup : String → Option String) : Expr → StateT Assigned (Except Fault) Int64
  | .number n => pure n
  | .name s => valueOf lookup s
  | .unary mark e => do
    let a ← e.eval lookup
    pure (applySign mark a)
  | .binary mark a b => do
    let x ← a.eval lookup
    if mark == "&&" then
      if x == 0 then pure 0 else pure (truth ((← b.eval lookup) != 0))
    else if mark == "||" then
      if x != 0 then pure 1 else pure (truth ((← b.eval lookup) != 0))
    else combine mark x (← b.eval lookup)
  | .choose condition yes no => do
    if (← condition.eval lookup) != 0 then yes.eval lookup else no.eval lookup
  | .assign s mark e => do
    let x ← e.eval lookup
    let x ←
      if mark.isEmpty then pure x
      else do
        let old ← valueOf lookup s
        combine mark old x
    modify fun a => (s, x) :: a
    pure x

/-- The value of a text, and the names that it assigns to, in their order. -/
def evaluate (lookup : String → Option String) (text : List Char) :
    Except Fault (Int64 × Assigned) := do
  let e ← parse text
  let (n, assigned) ← (e.eval lookup).run []
  .ok (n, assigned.reverse)

end HeapPressure.Shell.Arithmetic
