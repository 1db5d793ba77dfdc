import HeapPressure.Json.Value

/-!
Writing JSON: the documents this library produces, on one line or indented.
-/
namespace HeapPressure.Json

inductive Document where
  | null
  | integer (n : Int)
  | string (s : String)
  | object (members : List (String × Document))

/-- Control characters, quotes and backslashes are escaped, all else stands for itself. -/
def escapeChar (c : Char) : List Char :=
  if c = '\"' then ['\\', '\"']
  else if c = '\\' then ['\\', '\\']
  else if c = '\x08' then ['\\', 'b']
  else if c = '\x0c' then ['\\', 'f']
  else if c = '\n' then ['\\', 'n']
  else if c = '\r' then ['\\', 'r']
  else if c = '\t' then ['\\', 't']
  else if c.toNat < 0x20 then
    ['\\', 'u', '0', '0', Nat.digitChar (c.toNat / 16), Nat.digitChar (c.toNat % 16)]
  else [c]

def quote (s : String) : List Char := '\"' :: s.toList.flatMap escapeChar ++ ['\"']

def integerText (n : Int) : List Char :=
  match n with
  | .ofNat k => Nat.toDigits 10 k
  | .negSucc k => '-' :: Nat.toDigits 10 (k + 1)

namespace Document

mutual

def compactChars : Document → List Char
  | .null => ['n', 'u', 'l', 'l']
  | .integer n => integerText n
  | .string s => quote s
  | .object members => '\x7b' :: membersChars true members ++ ['\x7d']

def membersChars (first : Bool) : List (String × Document) → List Char
  | [] => []
  | (key, d) :: rest =>
    (if first then [] else [',']) ++ quote key ++ ':' :: d.compactChars ++ membersChars false rest

end

def indent (depth : Nat) : List Char := '\n' :: List.replicate (2 * depth) ' '

mutual

/-- Two blanks per level; an object without members stays closed up. -/
def prettyChars (depth : Nat) : Document → List Char
  | .null => ['n', 'u', 'l', 'l']
  | .integer n => integerText n
  | .string s => quote s
  | .object [] => ['\x7b', '\x7d']
  | .object (m :: ms) =>
    '\x7b' :: prettyMembers (depth + 1) true (m :: ms) ++ indent depth ++ ['\x7d']

def prettyMembers (depth : Nat) (first : Bool) : List (String × Document) → List Char
  | [] => []
  | (key, d) :: rest =>
    (if first then [] else [',']) ++ indent depth ++ quote key ++ [':', ' ']
      ++ d.prettyChars depth ++ prettyMembers depth false rest

end

def compact (d : Document) : String := String.ofList d.compactChars

def pretty (d : Document) : String := String.ofList (d.prettyChars 0)

end Document

def Document.ofOption {α : Type} (f : α → Document) : Option α → Document
  | some a => f a
  | none => .null

end HeapPressure.Json
