import HeapPressure.Shell.Builtin

/-!
Commands as they are called: by a name or a path, in place of the shell or not; and what a shell
that is called has to run.
-/
namespace HeapPressure.Shell

/-- How a command is called: in place of the shell, or without regard to functions. -/
structure Call where
  inPlace : Bool := false
  direct : Bool := false
  words : List String

/-- How the words of a command call it, after so many words that say how. -/
private def callAfter : Nat → Bool → List String → Call
  | 0, direct, words => { direct, words }
  | fuel + 1, direct, words =>
    match words with
    | "exec" :: words => { inPlace := true, direct := true, words }
    | "command" :: args =>
      match optionsOf (.plain "pvV") args with
      | .error _ => { direct, words }
      | .ok g =>
        if g.has 'v' || g.has 'V' || g.arguments.isEmpty then { direct, words }
        else callAfter fuel true g.arguments
    | words => { direct, words }

def callOf (words : List String) : Call := callAfter words.length false words

/-- The program that a script calls by its name or path, or what is wrong. -/
def programNamed (s : State) (name : String) : Except Harness.SystemError String :=
  if name.isEmpty then .error .notFound
  else if name.toList.contains '/' then s.files.runnable name
  else s.files.search name Machine.Files.searchPath .notFound

/-- The program that a script calls, or what a shell says is wrong, with a status. -/
def programOf (s : State) (name : String) : Except (String × Nat) String :=
  if name.isEmpty then .error (": Permission denied", 127)
  else
    match programNamed s name with
    | .ok program => .ok program
    | .error .permissionDenied => .error (name ++ ": Permission denied", 126)
    | .error _ => .error (name ++ ": not found", 127)

/-- The options in front of a shell's arguments, the letter `c` among them, and the others. An
option may be given by its name; those that are switched off do not count. -/
def leadingOptions : List String → Except String (List Char × List String)
  | [] => .ok ([], [])
  | "-" :: args => .ok ([], args)
  | "--" :: args => .ok ([], args)
  | [a] => (lettersIn a).map fun l => (l.getD [], if l.isSome then [] else [a])
  | a :: b :: args => do
    match ← lettersIn a with
    | none => pure ([], a :: b :: args)
    | some letters =>
      if (a.drop 1).contains 'o' then
        match Builtin.optionNames.lookup b, Builtin.silentNames.contains b with
        | none, false => .error ("Illegal option " ++ (a.take 1).toString ++ "o " ++ b)
        | known, _ => do
          let (more, rest) ← leadingOptions args
          pure (letters ++ (if a.startsWith "-" then known.toList else []) ++ more, rest)
      else do
        let (more, rest) ← leadingOptions (b :: args)
        pure (letters ++ more, rest)
where
  /-- The letters of an argument, if it gives options. -/
  lettersIn (a : String) : Except String (Option (List Char)) :=
    match a.toList with
    | sign :: c :: cs =>
      if sign != '-' && sign != '+' then .ok none
      else
        let known := 'c' :: 'l' :: 'o' :: Builtin.optionNames.map Prod.snd
        match (c :: cs).find? fun c => !known.contains c with
        | some c => .error ("Illegal option " ++ String.ofList [sign, c])
        | none => .ok (some (if sign == '-' then (c :: cs).filter (· != 'o') else []))
    | _ => .ok none

/-- The names that a shell gives values to when it starts, unless they have some, and those it
gives values to in any case. -/
private def begun (s : State) : State :=
  let s := { s with bindings := s.bindings.filter fun v => isName v.1.toList }
  let usual := [("PATH", ":".intercalate Machine.Files.searchPath), ("PS1", "# "), ("PS2", "> "),
    ("PS4", "+ ")]
  let s := usual.foldl
    (fun s v => if (s.bindings.lookup v.1).isSome then s else s.assign v.1 v.2) s
  let s := [("IFS", " \t\n"), ("OPTIND", "1"),
    ("PPID", toString (s.ancestors.headD (s.number - 1))),
    ("PWD", Builtin.pathOf s.files.workingDirectory)].foldl (fun s v => s.assign v.1 v.2) s
  { s with exported := "PWD" :: s.exported }

/-- What a shell starts with: a script and its state, or a state in which it has complained. The
script is an argument, a file or the input. -/
def invoked (name : String) (args : List String) (s : State) : Except State (List Char × State) :=
  let s := { begun s with name, status := 0, line := 0 }
  match leadingOptions args with
  | .error e => .error (s.complain e 2)
  | .ok (letters, rest) =>
    let options := letters.filter fun c => c != 'c' && c != 'l'
    let s' := { s with line := 1, options }
    match letters.contains 'c', letters.contains 's', rest with
    | true, _, [] => .error (s.complain "-c requires an argument" 2)
    | true, _, text :: [] => .ok (text.toList, { s' with args := [] })
    | true, _, text :: name :: args => .ok (text.toList, { s' with name, args })
    | false, true, args => .ok (Text.Utf8.lossy s.input, { s' with args, input := [] })
    | false, false, [] =>
      .ok (Text.Utf8.lossy s.input, { s' with
        args := []
        input := []
        options := options ++ ['s'] })
    | false, false, path :: args =>
      match s.files.read path with
      | .ok bytes => .ok (Text.Utf8.lossy bytes, { s' with name := path, args })
      | .error .isDirectory => .ok ([], { s' with name := path, args })
      | .error _ => .error (s.complain ("cannot open " ++ path ++ ": No such file") 2)

end HeapPressure.Shell
