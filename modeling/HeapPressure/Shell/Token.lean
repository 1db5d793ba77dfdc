import HeapPressure.Shell.Word

/-!
The tokens of a shell script: words, operators and redirections, each with the line it is on.
-/
namespace HeapPressure.Shell

inductive Redirect where
  | write
  /-- Also onto what must not be lost. -/
  | overwrite
  | append
  | read
  | duplicate
  /-- The input is the word itself. -/
  | text
deriving DecidableEq

inductive Token where
  | word (w : Word)
  | operator (name : String)
  | redirect (stream : Nat) (kind : Redirect)
  | fault (f : Fault)
  /-- Where what an alias stands for ends, and whether the next word may be one as well. -/
  | endOf (name : String) (onward : Bool)
  | finish

/-- The last token is a fault or the finish. -/
abbrev Tokens := List (Token × Nat)

/-- The words that stand for a part of a compound command where a command may begin. -/
def keywords : List String :=
  ["!", "case", "do", "done", "elif", "else", "esac", "fi", "for", "if", "in", "then", "until",
    "while", "\x7b", "\x7d"]

namespace Token

def keyword? : Token → Option String
  | .word w => w.plain?.filter keywords.contains
  | _ => none

def isOperator (name : String) : Token → Bool
  | .operator n => n == name
  | _ => false

/-- What a token is called in messages. -/
def title : Token → String
  | .word w =>
    match Token.keyword? (.word w) with
    | some k => "\"" ++ k ++ "\""
    | none => "word"
  | .operator "\n" => "newline"
  | .operator name => "\"" ++ name ++ "\""
  | .redirect _ _ => "redirection"
  | _ => "end of file"

/-- Whether no further command of a list can begin here. -/
def endsList (t : Token) : Bool :=
  match t with
  | .operator name => name == ")" || name == ";;"
  | .finish => true
  | _ =>
    match t.keyword? with
    | some k => ["do", "done", "elif", "else", "esac", "fi", "then", "\x7d"].contains k
    | none => false

end Token

private def operators : List String := ["&&", "||", ";;", ";", "&", "|", "(", ")"]

private def redirects : List (String × Nat × Redirect) :=
  [("<<", 0, .text), (">>", 1, .append), (">&", 1, .duplicate), ("<&", 0, .duplicate),
    (">|", 1, .overwrite), ("<>", 0, .read), (">", 1, .write), ("<", 0, .read)]

private def redirect? (cs : List Char) : Option ((Nat × Redirect) × List Char) :=
  let (digit, behind) : Option Nat × List Char :=
    match cs with
    | c :: rest => if c.isDigit then (some (c.toNat - 48), rest) else (none, cs)
    | [] => (none, [])
  redirects.findSome? fun (text, stream, kind) =>
    if text.toList.isPrefixOf behind then
      some ((digit.getD stream, kind), behind.drop text.length)
    else none

private def operator? (cs : List Char) : Option (String × List Char) :=
  operators.findSome? fun text =>
    if text.toList.isPrefixOf cs then some (text, cs.drop text.length) else none

/-- The lines up to one that is the mark, and what follows that. -/
def linesUntil (mark : List Char) (indented : Bool) : Nat → List Char → List Char × List Char
  | 0, _ => ([], [])
  | fuel + 1, cs =>
    if cs.isEmpty then ([], [])
    else
      let line := cs.takeWhile (· != '\n')
      let rest := cs.drop (line.length + 1)
      let line := if indented then line.dropWhile (· == '\t') else line
      if line == mark then ([], rest)
      else if rest.isEmpty && cs.getLast? != some '\n' then (line, [])
      else
        let (more, rest) := linesUntil mark indented fuel rest
        (line ++ '\n' :: more, rest)

private def pieceText : Piece → List Char
  | .literal s => s
  | .quoted s => s
  | _ => []

private def isQuotedPiece : Piece → Bool
  | .quoted _ => true
  | _ => false

/-- A given input: the word that holds it, the script without it, and how many lines that takes. -/
structure GivenInput where
  word : Word
  rest : List Char
  lines : Nat

private def countLines (cs : List Char) : Nat := cs.countP (· == '\n')

/-- An input given in the lines below. A quoted mark says that nothing in it is worked out. -/
def given (cs : List Char) : Except Fault GivenInput := do
  let (indented, cs) : Bool × List Char :=
    match cs with
    | '-' :: cs => (true, cs)
    | cs => (false, cs)
  let cs := cs.dropWhile isBlank
  let (mark, behind) ← word (cs.length + 1) cs
  let isQuoted := mark.any isQuotedPiece
  let ending := if isQuoted then mark.flatMap pieceText else cs.take (cs.length - behind.length)
  let here := behind.takeWhile (· != '\n')
  let start := behind.drop (here.length + 1)
  let (body, below) := linesUntil ending indented (cs.length + 1) start
  let rest := here ++ '\n' :: below
  let lines := countLines start - countLines below
  if isQuoted then .ok ⟨[.quoted body], rest, lines⟩
  else do
    let (w, _) ← text (2 * body.length + 2) .body body
    .ok ⟨.quoted [] :: w, rest, lines⟩

/-- The tokens of a script from a line on; `owed` lines more are over at the end of the line. -/
def tokens : Nat → Nat → Nat → List Char → Tokens
  | 0, line, _, _ => [(.finish, line)]
  | fuel + 1, line, owed, cs =>
    let further (t : Token) (rest : List Char) : Tokens :=
      (t, line) :: tokens fuel (line + (countLines cs - countLines rest)) owed rest
    match cs with
    | [] => [(.finish, line)]
    | '\\' :: '\n' :: rest => tokens fuel (line + 1) owed rest
    | '\n' :: rest => (.operator "\n", line) :: tokens fuel (line + 1 + owed) 0 rest
    | c :: rest =>
      if isBlank c then tokens fuel line owed rest
      else if c == '#' then tokens fuel line owed (cs.dropWhile (· != '\n'))
      else
        match redirect? cs with
        | some ((stream, .text), rest) =>
          let mark := (if rest.head? == some '-' then rest.drop 1 else rest).dropWhile isBlank
          if (mark.head?.map endsWord).getD true then further (.redirect stream .text) mark
          else
            match given rest with
            | .ok g =>
              (.redirect stream .text, line) :: (.word g.word, line)
                :: tokens fuel line (owed + g.lines) g.rest
            | .error f => [(.fault f, line)]
        | some ((stream, kind), rest) => further (.redirect stream kind) rest
        | none =>
          match operator? cs with
          | some (name, rest) => further (.operator name) rest
          | none =>
            match word (cs.length + 1) cs with
            | .ok (w, rest) => further (.word w) rest
            | .error f => [(.fault f, line)]

def tokensOf (script : List Char) : Tokens := tokens (script.length + 1) 1 0 script

end HeapPressure.Shell
