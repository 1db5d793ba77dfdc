/-!
The options in front of a command's arguments: letters behind hyphens, of which some want a value,
the rest of their argument or the next one.
-/
namespace HeapPressure.Shell

/-- The letters that a command knows, each with whether it wants a value. -/
abbrev Letters := List (Char × Bool)

/-- The letters that want no value. -/
def Letters.plain (letters : String) : Letters := letters.toList.map fun c => (c, false)

/-- What is wrong with options. -/
inductive OptionFault where
  | unknown (letter : Char)
  /-- The value is not there. -/
  | wanting (letter : Char)
deriving DecidableEq

namespace OptionFault

/-- As the shell says it. -/
def message : OptionFault → String
  | .unknown c => "Illegal option -" ++ String.singleton c
  | .wanting c => "No arg for -" ++ String.singleton c ++ " option"

/-- As other programs say it. -/
def complaint : OptionFault → String
  | .unknown c => "invalid option -- '" ++ String.singleton c ++ "'"
  | .wanting c => "option requires an argument -- '" ++ String.singleton c ++ "'"

end OptionFault

structure Given where
  options : List (Char × String) := []
  arguments : List String := []

namespace Given

def has (g : Given) (letter : Char) : Bool := g.options.any fun o => o.1 == letter

def add (options : List (Char × String)) (g : Given) : Given :=
  { g with options := options ++ g.options }

end Given

/-- The options of one argument, and the letter at its end that still wants a value. -/
def lettersOf (known : Letters) :
    List Char → Except OptionFault (List (Char × String) × Option Char)
  | [] => .ok ([], none)
  | c :: cs =>
    match known.lookup c with
    | none => .error (.unknown c)
    | some true =>
      if cs.isEmpty then .ok ([], some c) else .ok ([(c, String.ofList cs)], none)
    | some false => do
      let (more, wanting) ← lettersOf known cs
      .ok ((c, "") :: more, wanting)

/-- Options in words, with the letters that mean the same, made to those; a value stands behind an
equals sign. -/
def shortened (names : List (String × Char)) : List String → List String
  | [] => []
  | a :: args =>
    if !a.startsWith "-" || a == "--" then a :: args
    else
      match names.find? fun n => a == "--" ++ n.1 || a.startsWith ("--" ++ n.1 ++ "=") with
      | none => a :: shortened names args
      | some (name, letter) =>
        ("-" ++ String.singleton letter ++ (a.drop (name.length + 3)).toString)
          :: shortened names args

/-- Takes the options off the arguments; two hyphens end them. -/
def optionsOf (known : Letters) : List String → Except OptionFault Given
  | [] => .ok {}
  | a :: rest =>
    match a.toList with
    | ['-', '-'] => .ok { arguments := rest }
    | '-' :: c :: cs =>
      match lettersOf known (c :: cs) with
      | .error e => .error e
      | .ok (options, none) => do pure ((← optionsOf known rest).add options)
      | .ok (options, some wanting) =>
        match rest with
        | [] => .error (.wanting wanting)
        | value :: rest => do
          pure ((← optionsOf known rest).add (options ++ [(wanting, value)]))
    | _ => .ok { arguments := a :: rest }

/-- How far the options of a script have been taken: the number of the next argument, and how
many characters of the one before are used up. -/
structure Progress where
  next : Nat := 1
  used : Option Nat := none
deriving DecidableEq

/-- What comes of taking one more option. -/
inductive Taken where
  /-- There are no more. -/
  | finished
  | option (letter : Char) (value : String)
  | unknown (letter : Char)
  /-- A letter without the value it wants. -/
  | wanting (letter : Char)
deriving DecidableEq

/-- A text of letters, those with a colon behind them wanting a value. -/
def Letters.ofText : List Char → Letters
  | [] => []
  | [c] => [(c, false)]
  | c :: ':' :: cs => (c, true) :: Letters.ofText cs
  | c :: d :: cs => (c, false) :: Letters.ofText (d :: cs)

/-- Takes one letter of an argument, which is the one before `next`. -/
private def takeLetter (known : Letters) (args : List String) (next : Nat) (c : Char)
    (cs : List Char) (used : Nat) : Taken × Progress :=
  let onward : Progress := ⟨next, some (used + 1)⟩
  match known.lookup c with
  | none => (.unknown c, onward)
  | some false => (.option c "", onward)
  | some true =>
    if !cs.isEmpty then (.option c (String.ofList cs), ⟨next, none⟩)
    else
      match args[next - 1]? with
      | some value => (.option c value, ⟨next + 1, none⟩)
      | none => (.wanting c, ⟨next, some (used + 1)⟩)

/-- Takes the next option off arguments that stay as they are. -/
def takeOption (known : Letters) (args : List String) (p : Progress) : Taken × Progress :=
  let begun : List Char :=
    match p.used with
    | none => []
    | some n => if p.next ≤ 1 then [] else ((args[p.next - 2]?).getD "").toList.drop n
  match begun with
  | c :: cs => takeLetter known args p.next c cs (p.used.getD 0)
  | [] =>
    match (args[p.next - 1]?).map String.toList with
    | some ['-', '-'] => (.finished, ⟨p.next + 1, none⟩)
    | some ('-' :: c :: cs) => takeLetter known args (p.next + 1) c cs 1
    | _ => (.finished, ⟨p.next, none⟩)

end HeapPressure.Shell
