import HeapPressure.Json.Value
import HeapPressure.Text.Hexadecimal

/-!
Reading JSON. Every text reads as some `Text`; where it stops being JSON the value says so.
-/
namespace HeapPressure.Json

open HeapPressure.Text (hexValue?)

def isBlank (c : Char) : Bool := c == ' ' || c == '\n' || c == '\t' || c == '\r'

def skipBlanks : List Char → List Char
  | [] => []
  | c :: cs => if isBlank c then skipBlanks cs else c :: cs

def hexUnit? (a b c d : Char) : Option Nat :=
  match hexValue? a, hexValue? b, hexValue? c, hexValue? d with
  | some a, some b, some c, some d => some (((a * 16 + b) * 16 + c) * 16 + d)
  | _, _, _, _ => none

/-- The character of an escape of one letter. -/
def shortEscape? (c : Char) : Option Char :=
  match c with
  | '\"' => some '\"'
  | '\\' => some '\\'
  | '/' => some '/'
  | 'b' => some '\x08'
  | 'f' => some '\x0c'
  | 'n' => some '\n'
  | 'r' => some '\r'
  | 't' => some '\t'
  | _ => none

/-- What a string is made of before surrogates are paired. -/
inductive Piece where
  | char (c : Char)
  | surrogate (unit : Nat)

def isSurrogate (unit : Nat) : Bool := 0xD800 ≤ unit && unit < 0xE000

def Piece.ofUnit (unit : Nat) : Piece :=
  if isSurrogate unit then .surrogate unit else .char (Char.ofNat unit)

/-- The pieces up to the closing quote, and the text behind it. -/
def scanString : List Char → Option (List Piece × List Char)
  | [] => none
  | '\"' :: cs => some ([], cs)
  | '\\' :: 'u' :: a :: b :: c :: d :: cs => do
    let unit ← hexUnit? a b c d
    let (ps, rest) ← scanString cs
    pure (Piece.ofUnit unit :: ps, rest)
  | '\\' :: e :: cs => do
    let c ← shortEscape? e
    let (ps, rest) ← scanString cs
    pure (.char c :: ps, rest)
  | c :: cs =>
    if c.toNat < 0x20 || c == '\\' then none
    else do
      let (ps, rest) ← scanString cs
      pure (.char c :: ps, rest)

/-- Pairs the surrogates; `none` when one has no partner. -/
def joinPieces : List Piece → Option (List Char)
  | [] => some []
  | .char c :: ps => (joinPieces ps).map (c :: ·)
  | .surrogate high :: .surrogate low :: ps =>
    if high < 0xDC00 && 0xDC00 ≤ low then
      (joinPieces ps).map (Char.ofNat (0x10000 + (high - 0xD800) * 1024 + (low - 0xDC00)) :: ·)
    else none
  | .surrogate _ :: _ => none

def isDigit (c : Char) : Bool := '0' ≤ c && c ≤ '9'

def digitValue (c : Char) : Nat := c.toNat - 48

def natOfDigits (ds : List Char) : Nat := ds.foldl (fun n d => n * 10 + digitValue d) 0

/-- The digits behind a point, if there is one; a point without digits fails. -/
def scanFraction : List Char → Option (List Nat × List Char)
  | '.' :: cs =>
    let ds := cs.takeWhile isDigit
    if ds.isEmpty then none else some (ds.map digitValue, cs.dropWhile isDigit)
  | cs => some ([], cs)

/-- The exponent, if there is one. -/
def scanExponent : List Char → Option (Option Int × List Char)
  | e :: cs =>
    if e == 'e' || e == 'E' then
      let (negative, cs) : Bool × List Char :=
        match cs with
        | '+' :: cs => (false, cs)
        | '-' :: cs => (true, cs)
        | cs => (false, cs)
      let ds := cs.takeWhile isDigit
      if ds.isEmpty then none
      else
        let n : Int := natOfDigits ds
        some (some (if negative then -n else n), cs.dropWhile isDigit)
    else some (none, e :: cs)
  | [] => some (none, [])

/-- A literal behind its sign. No digit follows a leading zero. -/
def scanNumber (negative : Bool) (cs : List Char) : Option (Number × List Char) := do
  let ds := cs.takeWhile isDigit
  guard (!ds.isEmpty && (ds.length == 1 || ds.head? != some '0'))
  let (fraction, cs) ← scanFraction (cs.dropWhile isDigit)
  let (exponent, cs) ← scanExponent cs
  pure (⟨negative, natOfDigits ds, fraction, exponent⟩, cs)

/-- Takes `word` off the front of the text. -/
def dropWord? : (word cs : List Char) → Option (List Char)
  | [], cs => some cs
  | w :: ws, c :: cs => if w == c then dropWord? ws cs else none
  | _ :: _, [] => none

def scalar {α : Type} (v : α → Value) : Option (α × List Char) → Value × List Char
  | some (a, rest) => (v a, rest)
  | none => (.absent, [])

def keyword (word : String) (v : Value) (cs : List Char) : Value × List Char :=
  match dropWord? word.toList cs with
  | some rest => (v, rest)
  | none => (.absent, [])

def textOfPieces (ps : List Piece) : Option String := (joinPieces ps).map String.ofList

mutual

/-- The value at the front of a text without leading blanks, and what follows it. Each call
spends one unit of fuel and reads a character. -/
def readValue : Nat → List Char → Value × List Char
  | 0, _ => (.absent, [])
  | fuel + 1, cs =>
    match cs with
    | [] => (.absent, [])
    | '\"' :: rest => scalar (fun ps => .string (textOfPieces ps)) (scanString rest)
    | '[' :: rest =>
      let (items, rest) := readItems fuel true (skipBlanks rest)
      (.array items, rest)
    | '\x7b' :: rest =>
      let (members, rest) := readMembers fuel true (skipBlanks rest)
      (.object members, rest)
    | '-' :: rest => scalar .number (scanNumber true rest)
    | 'n' :: _ => keyword "null" .null cs
    | 't' :: _ => keyword "true" (.boolean true) cs
    | 'f' :: _ => keyword "false" (.boolean false) cs
    | c :: _ => if isDigit c then scalar .number (scanNumber false cs) else (.absent, [])

/-- Items up to the closing bracket; all but the first stand behind a comma. -/
def readItems : Nat → Bool → List Char → Items × List Char
  | 0, _, _ => (.torn, [])
  | fuel + 1, first, cs =>
    match cs with
    | [] => (.torn, [])
    | ']' :: rest => (.close, rest)
    | c :: rest =>
      let item (cs : List Char) : Items × List Char :=
        let (v, rest) := readValue fuel cs
        let (items, rest) := readItems fuel false (skipBlanks rest)
        (.cons v items, rest)
      if first then item cs
      else if c == ',' then
        match skipBlanks rest with
        | [] => (.torn, [])
        | ']' :: _ => (.torn, [])
        | cs => item cs
      else (.torn, [])

/-- Members up to the closing brace. -/
def readMembers : Nat → Bool → List Char → Members × List Char
  | 0, _, _ => (.torn, [])
  | fuel + 1, first, cs =>
    match cs with
    | [] => (.torn, [])
    | '\x7d' :: rest => (.close, rest)
    | c :: rest =>
      let member (cs : List Char) : Members × List Char :=
        match cs with
        | '\"' :: rest =>
          match scanString rest with
          | none => (.torn, [])
          | some (key, rest) =>
            match skipBlanks rest with
            | ':' :: rest =>
              let (v, rest) := readValue fuel (skipBlanks rest)
              let (members, rest) := readMembers fuel false (skipBlanks rest)
              (.cons (textOfPieces key) v members, rest)
            | _ => (.cons (textOfPieces key) .absent .torn, [])
        | _ => (.torn, [])
      if first then member cs
      else if c == ',' then member (skipBlanks rest)
      else (.torn, [])

end

/-- Reads a whole text. -/
def read (text : String) : Text :=
  let cs := skipBlanks text.toList
  let (v, rest) := readValue (2 * cs.length + 2) cs
  ⟨v, !(skipBlanks rest).isEmpty⟩

end HeapPressure.Json
