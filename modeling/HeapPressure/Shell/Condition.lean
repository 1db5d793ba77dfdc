import HeapPressure.Shell.State

/-!
The conditions that scripts test: on texts, on numbers and on files, joined by "and" and "or".
A condition that makes no sense is answered with what is wrong about it.
-/
namespace HeapPressure.Shell.Condition

/-- What a word is where it stands. -/
inductive Role where
  | finish
  | operand
  | unary
  | binary
  | negation
  | conjunction
  | disjunction
  | opening
  | closing
deriving DecidableEq

private def unaries : List String :=
  ["-r", "-w", "-x", "-e", "-f", "-d", "-c", "-b", "-p", "-u", "-g", "-k", "-s", "-t", "-z", "-n",
    "-h", "-O", "-G", "-L", "-S"]

private def binaries : List String :=
  ["=", "!=", "<", ">", "-eq", "-ne", "-ge", "-gt", "-le", "-lt", "-nt", "-ot", "-ef"]

private def roleOf (word : String) : Role :=
  if unaries.contains word then .unary
  else if binaries.contains word then .binary
  else
    match word with
    | "!" => .negation
    | "-a" => .conjunction
    | "-o" => .disjunction
    | "(" => .opening
    | ")" => .closing
    | _ => .operand

/-- An operator of one operand is an operand itself where nothing or an operator follows. -/
private def standsAlone : List String → Bool
  | [] => true
  | [_] => false
  | next :: _ => roleOf next == .binary

def role : List String → Role
  | [] => .finish
  | word :: rest =>
    match roleOf word with
    | .unary => if standsAlone rest then .operand else .unary
    | .opening => if rest.isEmpty then .operand else .opening
    | r => r

def onFile (s : State) (path : String) (accepts : Machine.Entry → Bool) : Bool :=
  match s.files.lookup path with
  | .ok e => accepts e
  | .error _ => false

private def isProgram : Machine.Entry → Bool
  | .program _ => true
  | .directory => true
  | _ => false

private def isDevice : Machine.Entry → Bool
  | .nullDevice => true
  | .zeroDevice => true
  | _ => false

private def isPlain : Machine.Entry → Bool
  | .program _ => true
  | .file _ => true
  | _ => false

private def holdsBytes : Machine.Entry → Bool
  | .program _ => true
  | .file contents => !contents.isEmpty
  | .directory => true
  | _ => false

def unary (s : State) (operator operand : String) : Bool :=
  match operator with
  | "-n" => operand != ""
  | "-z" => operand == ""
  | "-e" => onFile s operand fun _ => true
  | "-r" => onFile s operand fun _ => true
  | "-w" => onFile s operand fun _ => true
  | "-O" => onFile s operand fun _ => true
  | "-G" => onFile s operand fun _ => true
  | "-f" => onFile s operand isPlain
  | "-d" => onFile s operand (· == .directory)
  | "-x" => onFile s operand isProgram
  | "-c" => onFile s operand isDevice
  | "-s" => onFile s operand holdsBytes
  | _ => false

/-- A number of 64 bits with or without a sign. -/
private def number (s : String) : Except String Int :=
  let (sign, digits) : Int × List Char :=
    match s.trimAscii.toString.toList with
    | '+' :: cs => (1, cs)
    | '-' :: cs => (-1, cs)
    | cs => (1, cs)
  let n := sign * (digits.foldl (fun (n : Nat) d => n * 10 + (d.toNat - 48)) 0 : Nat)
  if !digits.isEmpty && digits.all Char.isDigit && -0x8000000000000000 ≤ n
      && n < 0x8000000000000000 then .ok n
  else .error ("Illegal number: " ++ s)

private def compare (a b : String) (holds : Int → Int → Bool) : Except String Bool := do
  let x ← number a
  let y ← number b
  .ok (holds x y)

def binary (left operator right : String) : Except String Bool :=
  match operator with
  | "=" => .ok (left == right)
  | "!=" => .ok (left != right)
  | "<" => .ok (left < right)
  | ">" => .ok (right < left)
  | "-eq" => compare left right fun a b => a == b
  | "-ne" => compare left right fun a b => a != b
  | "-lt" => compare left right fun a b => a < b
  | "-le" => compare left right fun a b => a ≤ b
  | "-gt" => compare left right fun a b => b < a
  | "-ge" => compare left right fun a b => b ≤ a
  | _ => .ok false

variable (s : State)

mutual

/-- The answer, and the words from the last one that was used. -/
def disjunction : Nat → List String → Except String (Bool × List String)
  | 0, ws => .ok (false, ws)
  | fuel + 1, ws => do
    let (a, ws) ← conjunction fuel ws
    match role ws.tail with
    | .disjunction => do
      let (b, ws) ← disjunction fuel (ws.drop 2)
      .ok (a || b, ws)
    | _ => .ok (a, ws)

def conjunction : Nat → List String → Except String (Bool × List String)
  | 0, ws => .ok (false, ws)
  | fuel + 1, ws => do
    let (a, ws) ← negation fuel ws
    match role ws.tail with
    | .conjunction => do
      let (b, ws) ← conjunction fuel (ws.drop 2)
      .ok (a && b, ws)
    | _ => .ok (a, ws)

def negation : Nat → List String → Except String (Bool × List String)
  | 0, ws => .ok (false, ws)
  | fuel + 1, ws =>
    if role ws == .negation then
      if ws.tail.isEmpty then .ok (true, ws)
      else do
        let (a, ws) ← negation fuel ws.tail
        .ok (!a, ws)
    else primary fuel ws

def primary : Nat → List String → Except String (Bool × List String)
  | 0, ws => .ok (false, ws)
  | fuel + 1, ws =>
    match role ws, ws with
    | .opening, _ :: rest =>
      if role rest == .closing then .ok (false, rest)
      else do
        let (a, ws) ← disjunction fuel rest
        if role ws.tail == .closing then .ok (a, ws.tail) else .error "closing paren expected"
    | .unary, operator :: rest =>
      match rest with
      | operand :: _ => .ok (unary s operator operand, rest)
      | [] => .error (operator ++ ": argument expected")
    | _, word :: rest =>
      match role rest, rest with
      | .binary, operator :: right :: rest => do
        let a ← binary word operator right
        .ok (a, right :: rest)
      | .binary, operator :: _ => .error (operator ++ ": argument expected")
      | _, _ => .ok (word != "", ws)
    | _, [] => .ok (false, [])

end

private def whole (ws : List String) : Except String Bool := do
  let (a, ws) ← disjunction s (4 * ws.length + 8) ws
  match ws with
  | word :: _ :: _ => .error (word ++ ": unexpected operator")
  | _ => .ok a

/-- Whether the condition that the words state holds. Three words with an operator between two
are just that. -/
def test : Nat → List String → Except String Bool
  | 0, _ => .ok false
  | fuel + 1, ws =>
    match ws with
    | [] => .ok false
    | [a, operator, b] =>
      if roleOf operator == .binary then binary a operator b
      else if a == "(" && b == ")" then whole s [operator]
      else if a == "!" then (test fuel [operator, b]).map not
      else whole s ws
    | [a, b, c, d] =>
      if a == "(" && d == ")" then whole s [b, c]
      else if a == "!" then (test fuel [b, c, d]).map not
      else whole s ws
    | _ => whole s ws

end HeapPressure.Shell.Condition
