import HeapPressure.Shell.Tool

/-!
The commands on names: which of them other programs get, which keep their values or lose them, and
which stand for commands.
-/
namespace HeapPressure.Shell.Names

open Effect

/-- A text in quotes that a script reads back; single quotes stand between double ones. -/
def singleQuoted (cs : List Char) : String :=
  let rec go : Nat → List Char → List Char
    | 0, _ => []
    | fuel + 1, cs =>
      let plain := cs.takeWhile (· != '\'')
      let rest := cs.drop plain.length
      let quotes := rest.takeWhile (· == '\'')
      let first := '\'' :: plain ++ ['\'']
      if quotes.isEmpty then first
      else
        let rest := rest.drop quotes.length
        first ++ '\"' :: quotes ++ '\"' :: (if rest.isEmpty then [] else go fuel rest)
  String.ofList (go (cs.length + 1) cs)

/-- Gives a name a value for a command of that title, unless it is no name or keeps its value. -/
private def give (title name : String) (value : Option String) (s : State)
    (onward : State → Effect) : Effect :=
  if !isName name.toList then forsake (title ++ ": " ++ name ++ ": bad variable name") s
  else
    match value with
    | none => onward s
    | some v =>
      if s.fixed.contains name then forsake (title ++ ": " ++ name ++ ": is read only") s
      else onward (s.assign name v)

private def nameAndValue (text : String) : String × Option String :=
  match assignment? text with
  | some (name, value) => (name, some value)
  | none => (text, none)

/-- Gives names their values, as far as there are any, and marks them all. -/
private def declareAll (title : String) (mark : String → State → State) :
    List String → State → Effect
  | [], s => succeed s
  | a :: args, s =>
    let (name, value) := nameAndValue a
    give title name value s fun s => declareAll title mark args (mark name s)

private def listed (title : String) (names : List String) (s : State) : Effect :=
  let sorted := names.eraseDups.mergeSort fun a b => !(b < a)
  succeed (s.say (String.join (sorted.map fun name =>
    match s.bindings.lookup name with
    | some v => title ++ " " ++ name ++ "=" ++ singleQuoted v.toList ++ "\n"
    | none => title ++ " " ++ name ++ "\n")))

private def declare (title : String) (names : List String) (mark : String → State → State)
    (args : List String) (s : State) : Effect :=
  match optionsOf (.plain "p") args with
  | .error e => forsake (title ++ ": " ++ e.message) s
  | .ok g =>
    if g.has 'p' || g.arguments.isEmpty then listed title names s
    else declareAll title mark g.arguments s

def exportNames (args : List String) (s : State) : Effect :=
  declare "export" s.exported (fun n s => { s with exported := n :: s.exported }) args s

def fixNames (args : List String) (s : State) : Effect :=
  declare "readonly" s.fixed (fun n s => { s with fixed := n :: s.fixed }) args s

/-- Names whose values last as long as the function that is running. -/
def localNames (args : List String) (s : State) : Effect :=
  match s.locals with
  | none => forsake "local: not in a function" s
  | some _ =>
    let remembered := args.foldl
      (fun s a =>
        let name := (nameAndValue a).1
        let known := s.locals.getD []
        if known.any (fun l => l.1 == name) then s
        else { s with locals := some ((name, s.bindings.lookup name) :: known) }) s
    declareAll "local" (fun _ s => s) args remembered

private def unsetAll : List String → State → Effect
  | [], s => succeed s
  | name :: names, s =>
    if !isName name.toList then forsake ("unset: " ++ name ++ ": bad variable name") s
    else if s.fixed.contains name then forsake ("unset: " ++ name ++ ": is read only") s
    else unsetAll names (s.unset name)

def unsetNames (args : List String) (s : State) : Effect :=
  match optionsOf (.plain "vf") args with
  | .error e => forsake ("unset: " ++ e.message) s
  | .ok g =>
    if (g.options.getLast?.map Prod.fst) == some 'f' then
      succeed { s with procedures := s.procedures.filter fun p => !g.arguments.contains p.1 }
    else unsetAll g.arguments s

/-- Where an alias stands in the list of all. -/
private def rank (name : String) : Nat :=
  let bytes := (Text.Utf8.encode name.toList).map UInt8.toNat
  (16 * bytes.headD 0 + bytes.foldl (· + ·) 0) % 39

private def aliasText (a : String × String) : String := a.1 ++ "=" ++ singleQuoted a.2.toList

/-- Splits a definition; its name has at least one character, whatever that is. -/
private def definition? (text : String) : Option (String × String) :=
  match text.toList with
  | [] => none
  | c :: cs => (assignment? (String.ofList cs)).map fun d => (String.singleton c ++ d.1, d.2)

/-- Shows what names stand for, or makes them stand for something. -/
def aliases (args : List String) (s : State) : Effect :=
  if args.isEmpty then
    let sorted := s.aliases.mergeSort fun a b => rank a.1 ≤ rank b.1
    succeed (s.say (String.join (sorted.map fun a => aliasText a ++ "\n")))
  else
    args.foldl
      (fun e arg =>
        match e with
        | .done s =>
          match definition? arg with
          | some (name, value) =>
            .done { s with aliases := (s.aliases.filter fun a => a.1 != name) ++ [(name, value)] }
          | none =>
            match s.aliases.lookup arg with
            | some value => .done (s.say (aliasText (arg, value) ++ "\n"))
            | none => protest ("alias: " ++ arg ++ " not found") 1 s
        | e => e) (succeed s)

def unalias (args : List String) (s : State) : Effect :=
  match optionsOf (.plain "a") args with
  | .error e => refuse ("unalias: " ++ e.message) 2 s
  | .ok g =>
    if g.has 'a' then succeed { s with aliases := [] }
    else
      g.arguments.foldl
        (fun e name =>
          match e with
          | .done s =>
            if (s.aliases.lookup name).isSome then
              .done { s with aliases := s.aliases.filter fun a => a.1 != name }
            else protest ("unalias: " ++ name ++ " not found") 1 s
          | e => e) (succeed s)

/-- Takes the next option off the arguments into names of its own. -/
def getopts (args : List String) (s : State) : Effect :=
  match args with
  | letters :: name :: given =>
    let quiet := letters.startsWith ":"
    let known := Letters.ofText (if quiet then letters.toList.drop 1 else letters.toList)
    let arguments := if given.isEmpty then s.args else given
    let p := if s.progress.next > arguments.length + 1 then {} else s.progress
    let (taken, p) := takeOption known arguments p
    let amiss (c : Char) (sign text : String) : String × State :=
      if quiet then (sign, s.assign "OPTARG" (String.singleton c))
      else ("?", (s.mention text).unset "OPTARG")
    let (found, after) : String × State :=
      match taken with
      | .finished => ("?", s)
      | .option c value => (String.singleton c, s.assign "OPTARG" value)
      | .unknown c => amiss c "?" ("Illegal option -" ++ String.singleton c)
      | .wanting c => amiss c ":" ("No arg for -" ++ String.singleton c ++ " option")
    let after := { after.assign "OPTIND" (toString p.next) with progress := p }
    if !isName name.toList then refuse ("getopts: " ++ name ++ ": bad variable name") 2 after
    else .done ((after.assign name found).withStatus (if taken == .finished then 1 else 0))
  | _ => refuse "getopts: Usage: getopts optstring var [arg...]" 2 s

end HeapPressure.Shell.Names
