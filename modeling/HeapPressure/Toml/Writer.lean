/-!
Writing TOML: keys with integers and strings, and one level of tables. A string is written in
the plainest of the four quotings that needs no escapes in it, and in a basic one otherwise.
-/
namespace HeapPressure.Toml

/-- What the choice of a quoting depends on. -/
structure Traits where
  /-- Control characters other than the tab and the line feed. -/
  controls : Bool
  backslashes : Bool
  newlines : Bool
  /-- The longest runs of each quote. -/
  singles : Nat
  doubles : Nat

/-- The longest run of a character in a text, with `now` of it directly in front. -/
def longestRun (q : Char) (now : Nat) : List Char → Nat
  | [] => now
  | c :: cs => if c == q then longestRun q (now + 1) cs else max now (longestRun q 0 cs)

def isControl (c : Char) : Bool := (c.toNat < 0x20 && c != '\t' && c != '\n') || c == '\x7f'

def Traits.of (s : List Char) : Traits where
  controls := s.any isControl
  backslashes := s.any (· == '\\')
  newlines := s.any (· == '\n')
  singles := longestRun '\'' 0 s
  doubles := longestRun '\"' 0 s

inductive Quoting where
  | basic
  | literal
  | longBasic
  | longLiteral
deriving DecidableEq

def Quoting.choose (t : Traits) : Quoting :=
  if !t.controls && !t.backslashes && t.doubles == 0 && !t.newlines then .basic
  else if !t.controls && t.singles == 0 && !t.newlines then .literal
  else if !t.controls && !t.backslashes && t.doubles ≤ 2 then .longBasic
  else if !t.controls && t.singles ≤ 2 then .longLiteral
  else if t.newlines then .longBasic
  else .basic

/-- A hexadecimal digit, upper case. -/
def hexDigit (n : Nat) : Char := (Nat.digitChar (n % 16)).toUpper

def escape (c : Char) : List Char :=
  if c = '\x08' then ['\\', 'b']
  else if c = '\t' then ['\\', 't']
  else if c = '\n' then ['\\', 'n']
  else if c = '\x0c' then ['\\', 'f']
  else if c = '\r' then ['\\', 'r']
  else if c = '\"' then ['\\', '\"']
  else if c = '\\' then ['\\', '\\']
  else if isControl c then
    ['\\', 'u', hexDigit (c.toNat / 4096), hexDigit (c.toNat / 256), hexDigit (c.toNat / 16),
      hexDigit c.toNat]
  else [c]

def basicBody (s : List Char) : List Char := s.flatMap escape

/-- Line feeds stand for themselves, and so do two quotes in a row, but not the third. -/
def longBasicBody (quotes : Nat) : List Char → List Char
  | [] => []
  | c :: cs =>
    if c = '\"' then
      if quotes = 2 then escape c ++ longBasicBody 0 cs else c :: longBasicBody (quotes + 1) cs
    else if c = '\n' then c :: longBasicBody 0 cs
    else escape c ++ longBasicBody 0 cs

def Quoting.write (q : Quoting) (newlines : Bool) (s : List Char) : List Char :=
  let opening : List Char := if newlines then ['\n'] else []
  match q with
  | .basic => ['\"'] ++ basicBody s ++ ['\"']
  | .literal => ['\''] ++ s ++ ['\'']
  | .longBasic => ['\"', '\"', '\"'] ++ opening ++ longBasicBody 0 s ++ ['\"', '\"', '\"']
  | .longLiteral => ['\'', '\'', '\''] ++ opening ++ s ++ ['\'', '\'', '\'']

def quoteChars (s : List Char) : List Char :=
  let t := Traits.of s
  (Quoting.choose t).write t.newlines s

def quote (s : String) : String := String.ofList (quoteChars s.toList)

/-- A line that sets a key. -/
def pairLine (key value : String) : String := key ++ " = " ++ value ++ "\n"

end HeapPressure.Toml
