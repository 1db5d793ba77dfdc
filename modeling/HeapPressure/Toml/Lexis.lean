import HeapPressure.Text.Hexadecimal

/-!
The characters of TOML: blanks, line ends, comments, and the four kinds of strings. A scanner
takes the text and gives what it read together with the text behind it.
-/
namespace HeapPressure.Toml

open HeapPressure.Text (charOfHex?)

def isBlank (c : Char) : Bool := c == ' ' || c == '\t'

def skipBlanks : List Char → List Char
  | [] => []
  | c :: cs => if isBlank c then skipBlanks cs else c :: cs

/-- Visible ASCII, the tab and everything beyond ASCII. -/
def isText (c : Char) : Bool := c == '\t' || (' ' ≤ c && c ≤ '~') || c.toNat ≥ 0x80

/-- The text behind a line end; a carriage return counts only before a line feed. -/
def newline? : List Char → Option (List Char)
  | '\n' :: cs => some cs
  | '\r' :: '\n' :: cs => some cs
  | _ => none

/-- The text behind a comment, if there is one, up to its line end. -/
def skipComment : List Char → List Char
  | '#' :: cs => cs.dropWhile isText
  | cs => cs

/-- The rest of a line: blanks, perhaps a comment, and the line end or the end of the text. -/
def endLine? (cs : List Char) : Option (List Char) :=
  match skipComment (skipBlanks cs) with
  | [] => some []
  | cs => newline? cs

/-- Passes over blanks, comments and line ends between the items of an array. -/
def skipFiller : Nat → List Char → List Char
  | 0, cs => cs
  | fuel + 1, cs =>
    let cs := skipBlanks cs
    match newline? (skipComment cs) with
    | some rest => skipFiller fuel rest
    | none => cs

def shortEscape? (c : Char) : Option Char :=
  match c with
  | 'b' => some '\x08'
  | 't' => some '\t'
  | 'n' => some '\n'
  | 'f' => some '\x0c'
  | 'r' => some '\r'
  | '\"' => some '\"'
  | '\\' => some '\\'
  | _ => none

def push (c : Char) : Option (List Char × List Char) → Option (List Char × List Char)
  | some (s, rest) => some (c :: s, rest)
  | none => none

/-- A basic string behind its opening quote. -/
def basicString : List Char → Option (List Char × List Char)
  | [] => none
  | '\"' :: cs => some ([], cs)
  | '\\' :: 'u' :: a :: b :: c :: d :: cs => do
    push (← charOfHex? [a, b, c, d]) (basicString cs)
  | '\\' :: 'U' :: a :: b :: c :: d :: e :: f :: g :: h :: cs => do
    push (← charOfHex? [a, b, c, d, e, f, g, h]) (basicString cs)
  | '\\' :: e :: cs => do push (← shortEscape? e) (basicString cs)
  | c :: cs => if isText c && c != '\\' then push c (basicString cs) else none

/-- A literal string behind its opening quote. -/
def literalString : List Char → Option (List Char × List Char)
  | [] => none
  | '\'' :: cs => some ([], cs)
  | c :: cs => if isText c then push c (literalString cs) else none

/-- Where a string of several lines stands towards a backslash that ends a line: none is
pending, or its line end is still to come, or the blanks behind it are being dropped. -/
inductive Gap where
  | none
  | opening
  | dropping
deriving DecidableEq

/-- A basic string of several lines behind its opening quotes. Of up to five quotes in a row
the last three close the string. -/
def longBasicString : Gap → List Char → Option (List Char × List Char)
  | _, [] => Option.none
  | .opening, '\n' :: cs => longBasicString .dropping cs
  | .opening, '\r' :: '\n' :: cs => longBasicString .dropping cs
  | .opening, c :: cs => if isBlank c then longBasicString .opening cs else Option.none
  | .dropping, '\n' :: cs => longBasicString .dropping cs
  | .dropping, '\r' :: '\n' :: cs => longBasicString .dropping cs
  | .dropping, ' ' :: cs => longBasicString .dropping cs
  | .dropping, '\t' :: cs => longBasicString .dropping cs
  | _, '\"' :: '\"' :: '\"' :: '\"' :: '\"' :: cs => some (['\"', '\"'], cs)
  | _, '\"' :: '\"' :: '\"' :: '\"' :: cs => some (['\"'], cs)
  | _, '\"' :: '\"' :: '\"' :: cs => some ([], cs)
  | _, '\r' :: '\n' :: cs => push '\n' (longBasicString .none cs)
  | _, '\\' :: '\n' :: cs => longBasicString .dropping cs
  | _, '\\' :: '\r' :: '\n' :: cs => longBasicString .dropping cs
  | _, '\\' :: ' ' :: cs => longBasicString .opening cs
  | _, '\\' :: '\t' :: cs => longBasicString .opening cs
  | _, '\\' :: 'u' :: a :: b :: c :: d :: cs => do
    push (← charOfHex? [a, b, c, d]) (longBasicString .none cs)
  | _, '\\' :: 'U' :: a :: b :: c :: d :: e :: f :: g :: h :: cs => do
    push (← charOfHex? [a, b, c, d, e, f, g, h]) (longBasicString .none cs)
  | _, '\\' :: e :: cs => do push (← shortEscape? e) (longBasicString .none cs)
  | _, c :: cs =>
    if (isText c || c == '\n') && c != '\\' then push c (longBasicString .none cs)
    else Option.none

/-- A literal string of several lines behind its opening quotes. -/
def longLiteralString : List Char → Option (List Char × List Char)
  | [] => none
  | '\'' :: '\'' :: '\'' :: '\'' :: '\'' :: cs => some (['\'', '\''], cs)
  | '\'' :: '\'' :: '\'' :: '\'' :: cs => some (['\''], cs)
  | '\'' :: '\'' :: '\'' :: cs => some ([], cs)
  | '\r' :: '\n' :: cs => push '\n' (longLiteralString cs)
  | c :: cs => if isText c || c == '\n' then push c (longLiteralString cs) else none

/-- A line end right behind the opening quotes does not belong to the string. -/
def dropFirstNewline (cs : List Char) : List Char := (newline? cs).getD cs

/-- A string with its quotes. -/
def string? : List Char → Option (List Char × List Char)
  | '\"' :: '\"' :: '\"' :: cs => longBasicString .none (dropFirstNewline cs)
  | '\'' :: '\'' :: '\'' :: cs => longLiteralString (dropFirstNewline cs)
  | '\"' :: cs => basicString cs
  | '\'' :: cs => literalString cs
  | _ => none

end HeapPressure.Toml
