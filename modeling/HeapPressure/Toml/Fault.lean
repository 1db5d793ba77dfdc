import HeapPressure.Toml.Value
import HeapPressure.Document.Problem
import HeapPressure.Text.Utf8

/-!
Faults: problems with a document at a stretch of its text, and the message that shows the place.
-/
namespace HeapPressure.Toml

structure Fault where
  problem : Document.Problem
  span : Option Span := none
deriving DecidableEq

/-- Where nothing narrower is known, the fault lies at `span`. -/
def Fault.within (span : Option Span) (f : Fault) : Fault := { f with span := f.span.or span }

/-- A place in a text for its reader: line and column from 1, the line itself, and how many
marks stand under it. -/
structure Position where
  line : Nat
  column : Nat
  content : List Char
  marks : Nat

private def byteCount (cs : List Char) : Nat := cs.foldl (fun n c => n + Text.Utf8.width c) 0

private def isLineFeed (c : Char) : Bool := c == '\n'

/-- The marks stand for the bytes of the span on its first line, one mark at least. -/
def Span.position (span : Span) (text : List Char) : Position :=
  let before := text.take (text.length - span.start)
  let marked := (text.drop before.length).take (span.start - span.stop)
  let column := (before.reverse.takeWhile fun c => !isLineFeed c).length
  let content := (text.drop (before.length - column)).takeWhile fun c => !isLineFeed c
  { line := before.countP isLineFeed + 1
    column := column + 1
    content
    marks := max 1 (min (byteCount marked) (byteCount content - column)) }

private def blanks (n : Nat) : String := String.ofList (List.replicate n ' ')

/-- The line of the fault with marks under it, then the reason. -/
def Fault.message (f : Fault) (text : String) : String :=
  let reason := f.problem.message ++ "\n"
  match f.span with
  | none => reason
  | some span =>
    let p := span.position text.toList
    let number := toString p.line
    let gutter := blanks (number.length + 1) ++ "|"
    "TOML parse error at line " ++ number ++ ", column " ++ toString p.column ++ "\n"
      ++ gutter ++ "\n"
      ++ number ++ " | " ++ String.ofList p.content ++ "\n"
      ++ gutter ++ blanks p.column ++ String.ofList (List.replicate p.marks '^') ++ "\n"
      ++ reason

/-- Why a text could not be taken for what it should be. -/
inductive Error where
  | badText
  | fault (f : Fault)
deriving DecidableEq

end HeapPressure.Toml
