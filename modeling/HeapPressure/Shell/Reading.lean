import HeapPressure.Shell.Pattern
import HeapPressure.Shell.Tool

/-!
Reading a line off the input into names.
-/
namespace HeapPressure.Shell.Reading

open Effect

/-- A line off the input, what follows it, and whether the line was ended. Unless escapes are left
alone, a newline behind a backslash does not end it. -/
def inputLine (raw : Bool) : List UInt8 → List UInt8 × List UInt8 × Bool
  | [] => ([], [], false)
  | b :: bs =>
    if b = 10 then ([], bs, true)
    else
      match bs with
      | c :: rest =>
        if b = 92 && !raw then
          let (line, rest, ended) := inputLine raw rest
          (b :: c :: line, rest, ended)
        else
          let (line, rest, ended) := inputLine raw (c :: rest)
          (b :: line, rest, ended)
      | [] => ([b], [], false)

/-- The characters of a line, each with whether it was escaped; escaped newlines are left out. -/
def unescaped : List Char → Marked
  | ['\\'] => []
  | '\\' :: '\n' :: cs => unescaped cs
  | '\\' :: c :: cs => (c, true) :: unescaped cs
  | c :: cs => (c, false) :: unescaped cs
  | [] => []

variable (separators : List Char)

private def parts (c : Char × Bool) : Bool := !c.2 && separators.contains c.1

private def partsBlank (c : Char × Bool) : Bool := isBlank c.1 && parts separators c

/-- What follows one separator, with blanks around it. -/
private def behindSeparator (cs : Marked) : Marked :=
  match cs.dropWhile (partsBlank separators) with
  | c :: rest => if parts separators c then rest.dropWhile (partsBlank separators) else c :: rest
  | [] => []

/-- Shares a line out to names, the last of which gets all that is left; but a separator at the
end of a single field is not part of it. -/
def share : List String → Marked → List (String × List Char)
  | [], _ => []
  | name :: names, cs =>
    let field := cs.takeWhile fun c => !parts separators c
    let rest := behindSeparator separators (cs.drop field.length)
    let kept : Marked :=
      if names.isEmpty && !rest.isEmpty then
        (cs.reverse.dropWhile (partsBlank separators)).reverse
      else field
    (name, kept.map Prod.fst) :: share names rest

/-- Gives names the values that are theirs. -/
private def assignAll (status : Nat) : List (String × List Char) → State → Effect
  | [], s => .done (s.withStatus status)
  | (name, value) :: more, s =>
    if !isName name.toList then refuse ("read: " ++ name ++ ": bad variable name") 2 s
    else if s.fixed.contains name then refuse ("read: " ++ name ++ ": is read only") 2 s
    else assignAll status more (s.assign name (String.ofList value))

def read (args : List String) (s : State) : Effect :=
  match optionsOf [('p', true), ('r', false)] args with
  | .error e => refuse ("read: " ++ e.message) 2 s
  | .ok ⟨_, []⟩ => refuse "read: arg count" 2 s
  | .ok ⟨options, names⟩ =>
    let raw := options.any fun o => o.1 == 'r'
    let (bytes, rest, ended) := inputLine raw s.input
    let text := Text.Utf8.lossy (bytes.filter (· != 0))
    let line : Marked := if raw then text.map fun c => (c, false) else unescaped text
    let values := share s.separators names (line.dropWhile (partsBlank s.separators))
    let after := { s with input := rest }
    match assignAll (if ended then 0 else 1) values after with
    | .done after => if s.endlessInput && !ended then .turn .stuck after else .done after
    | e => e

end HeapPressure.Shell.Reading
