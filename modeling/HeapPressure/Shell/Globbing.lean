import HeapPressure.Machine.Files
import HeapPressure.Shell.Pattern

/-!
Paths that fit a pattern: name by name, in the order of their bytes. Names that begin with a dot
fit only a pattern that does.
-/
namespace HeapPressure.Shell.Globbing

open HeapPressure.Machine (Files)

/-- Whether a text is a pattern at all. -/
def isPattern (field : Marked) : Bool :=
  field.any fun c => !c.2 && (c.1 == '*' || c.1 == '?' || c.1 == '[')

private def plain (m : Marked) : String := String.ofList (m.map Prod.fst)

/-- The names in a directory. -/
def namesIn (f : Files) (place : Machine.Place) : List String :=
  f.entries.filterMap fun e =>
    match e.1 with
    | name :: above => if above == place then some name else none
    | [] => none

private def fitting (f : Files) (directory : String) (name : Marked) : List String :=
  match f.resolve (if directory.isEmpty then "." else directory) with
  | .error _ => []
  | .ok place =>
    let pattern := Pattern.read name
    let hidden := name.head?.map Prod.fst == some '.'
    (namesIn f place).filter fun n => (hidden || !n.startsWith ".") && pattern.fitsText n

/-- The paths below a directory, whose text ends in a slash unless it is empty. -/
def below (f : Files) : String → List Marked → List String
  | _, [] => []
  | directory, [name] =>
    if isPattern name then (fitting f directory name).map (directory ++ ·)
    else if f.pathExists (directory ++ plain name) then [directory ++ plain name]
    else []
  | directory, name :: names =>
    if isPattern name then
      (fitting f directory name).flatMap fun n => below f (directory ++ n ++ "/") names
    else below f (directory ++ plain name ++ "/") names

/-- The names of a path. -/
def names : Marked → List Marked
  | [] => [[]]
  | c :: cs =>
    match c.1 == '/', names cs with
    | true, ns => [] :: ns
    | false, n :: ns => (c :: n) :: ns
    | false, [] => [[c]]

/-- The paths that a field stands for: those that fit it, or else itself. -/
def pathsOf (f : Files) (field : Marked) : List String :=
  if !isPattern field then [plain field]
  else
    match (below f "" (names field)).mergeSort fun a b => !(b < a) with
    | [] => [plain field]
    | paths => paths

end HeapPressure.Shell.Globbing
