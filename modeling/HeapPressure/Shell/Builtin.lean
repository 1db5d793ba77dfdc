import HeapPressure.Shell.Limits
import HeapPressure.Shell.Names
import HeapPressure.Shell.Reading

/-!
The commands that the shell has itself and that run no script of their own.
-/
namespace HeapPressure.Shell.Builtin

open Effect

private def withNumber (name : String) (args : List String) (otherwise : Nat) (s : State)
    (go : Nat → Effect) : Effect :=
  match args with
  | [] => go otherwise
  | a :: _ =>
    match natural? a with
    | some n => go n
    | none => forsake (name ++ ": Illegal number: " ++ a) s

private def exit (args : List String) (s : State) : Effect :=
  withNumber "exit" args s.status s fun n => .turn .exit (s.withStatus (n % 256))

private def giveBack (args : List String) (s : State) : Effect :=
  withNumber "return" args s.status s fun n => .turn .back (s.withStatus (n % 256))

/-- Outside of loops nothing is left. -/
private def loops (name : String) (turn : Nat → Flow) (args : List String) (s : State) : Effect :=
  withNumber name args 1 s fun n =>
    if n = 0 then forsake (name ++ ": Illegal number: " ++ args.headD "") s
    else
      let n := min n s.loops
      if n = 0 then succeed s else .turn (turn (n - 1)) (s.withStatus 0)

/-- Sets the actions on signals, up to the first name that is none. -/
private def setTraps (action : Option String) : List String → State → Effect
  | [], s => succeed s
  | name :: names, s =>
    match Signal.ofText? name with
    | none => protest ("trap: " ++ name ++ ": bad trap") 1 s
    | some n =>
      let kept := s.traps.filter fun t => t.1 != n
      setTraps action names
        { s with traps := (action.map fun a => (n, a.toList)).toList ++ kept }

private def trap (args : List String) (s : State) : Effect :=
  match optionsOf [] args with
  | .error e => forsake ("trap: " ++ e.message) s
  | .ok g =>
    match g.arguments with
    | [] =>
      let lines := ((List.range (Signal.last + 1)).filterMap fun n =>
        (s.traps.lookup n).map fun action =>
          "trap -- " ++ Names.singleQuoted action ++ " " ++ Signal.nameOf n ++ "\n")
      succeed (s.say (String.join lines))
    | [name] => setTraps none [name] s
    | "-" :: names => setTraps none names s
    | action :: names =>
      if ((natural? action).filter (· ≤ Signal.last)).isSome then setTraps none (action :: names) s
      else setTraps (some action) names s

/-- Waits until a time, unless a signal with an action comes before. -/
private def waitUntil (time status : Nat) (s : State) : Effect :=
  match s.alarms.find? fun a => a.1 < time && s.minds a.2 with
  | some (t, n) => .done { s with clock := max s.clock t, status := 128 + n }
  | none => .done { s with clock := max s.clock time, status }

/-- Waits for what may never end; only a signal with an action breaks it off. -/
private def waitInVain (s : State) : Effect :=
  match s.alarms.find? fun a => s.minds a.2 with
  | some (t, n) => .done { s with clock := max s.clock t, status := 128 + n }
  | none => .turn .stuck s

private def settle (s : State) (places : List Nat) : State :=
  { s with jobs := s.jobs.mapIdx fun i j =>
    if places.contains i then { j with settled := true } else j }

/-- The place of the job that an argument names; `none` in the inner option when there is none of
that number. -/
private def jobNamed (s : State) (text : String) : Except String (Option Nat) :=
  if text.startsWith "%" then
    match natural? (text.drop 1).toString with
    | some n =>
      match s.jobPlace? (s.number + n) with
      | some i => .ok (some i)
      | none => .error ("No such job: " ++ text)
    | none => .error ("No such job: " ++ text)
  else
    match natural? text with
    | some n => .ok (s.jobPlace? n)
    | none => .error ("Illegal number: " ++ text)

/-- Waits for one job after the other. One that is ended by a signal meanwhile is talked about. -/
private def waitEach (status : Nat) : List String → State → Effect
  | [], s => .done (s.withStatus status)
  | a :: args, s =>
    match jobNamed s a with
    | .error e => refuse ("wait: " ++ e) 2 s
    | .ok place =>
      match place.bind fun i => (s.jobs[i]?).map fun j => (i, j) with
      | none => waitEach 127 args s
      | some (i, job) =>
        match job.finish with
        | none => waitInVain s
        | some time =>
          match waitUntil time job.status s with
          | .done after =>
            if after.clock < time then .done after
            else
              let after :=
                match job.signal with
                | some n =>
                  if s.clock ≤ time && !job.settled && !Signal.isQuiet n then
                    after.mention (Signal.description n)
                  else after
                | none => after
              waitEach job.status args (settle after [i])
          | e => e

/-- Waits for jobs, all of them unless some are named. -/
private def wait (args : List String) (s : State) : Effect :=
  match optionsOf [] args with
  | .error e => refuse ("wait: " ++ e.message) 2 s
  | .ok ⟨_, []⟩ =>
    match s.jobs.mapM Job.finish with
    | none => waitInVain s
    | some ends =>
      match waitUntil (ends.foldl max 0) 0 s with
      | .done after =>
        .done (if after.status = 0 then settle after (List.range s.jobs.length) else after)
      | e => e
  | .ok ⟨_, args⟩ => waitEach 0 args s

private def shift (args : List String) (s : State) : Effect :=
  withNumber "shift" args 1 s fun n =>
    if n ≤ s.args.length then succeed { s with args := s.args.drop n, progress := {} }
    else forsake "shift: can't shift that many" s

/-- The options of the shell by their names and letters. -/
def optionNames : List (String × Char) :=
  [("errexit", 'e'), ("noglob", 'f'), ("ignoreeof", 'I'), ("interactive", 'i'), ("monitor", 'm'),
    ("noexec", 'n'), ("stdin", 's'), ("xtrace", 'x'), ("verbose", 'v'), ("vi", 'V'),
    ("emacs", 'E'), ("noclobber", 'C'), ("allexport", 'a'), ("notify", 'b'), ("nounset", 'u'),
    ("privileged", 'p')]

/-- The options that have no letter. -/
def silentNames : List String := ["nolog", "debug"]

/-- Switches an option. There is no terminal to control jobs at. -/
private def switch (on : Bool) (c : Char) (s : State) : State :=
  let others := s.options.filter (· != c)
  if on && c == 'm' then
    s.report "set: can't access tty; job control turned off" s.status
  else { s with options := if on then others ++ [c] else others }

private def optionStates (s : State) : List (String × Bool) :=
  optionNames.map (fun o => (o.1, s.has o.2)) ++ silentNames.map fun n => (n, false)

/-- The options and whether they are on, for a reader. -/
private def optionTable (s : State) : String :=
  "Current option settings\n" ++ String.join ((optionStates s).map fun (name, on) =>
    name ++ String.ofList (List.replicate (16 - name.length) ' ')
      ++ (if on then "on\n" else "off\n"))

/-- The commands that make the options as they are. -/
private def optionCommands (s : State) : String :=
  String.join ((optionStates s).map fun (name, on) =>
    "set " ++ (if on then "-o " else "+o ") ++ name ++ "\n")

/-- Reads options up to the first argument that is none. -/
private def setOptions : List String → State → Effect
  | [], s => succeed s
  | "--" :: args, s => succeed { s with args, progress := {} }
  | "-" :: args, s =>
    let s := switch false 'x' (switch false 'v' s)
    if args.isEmpty then succeed s else succeed { s with args, progress := {} }
  | ["-o"], s => succeed (s.say (optionTable s))
  | ["+o"], s => succeed (s.say (optionCommands s))
  | "-o" :: name :: args, s => long true name args s
  | "+o" :: name :: args, s => long false name args s
  | a :: args, s =>
    match a.toList with
    | sign :: cs =>
      if sign == '-' || sign == '+' then
        match cs.find? fun c => !(optionNames.map Prod.snd).contains c with
        | some 'o' =>
          let s := (cs.filter (· != 'o')).foldl (fun s c => switch (sign == '-') c s) s
          match args with
          | name :: args => long (sign == '-') name args s
          | [] => succeed s
        | some c => forsake ("set: Illegal option " ++ String.ofList [sign, c]) s
        | none => setOptions args (cs.foldl (fun s c => switch (sign == '-') c s) s)
      else succeed { s with args := a :: args, progress := {} }
    | [] => succeed { s with args := a :: args, progress := {} }
where
  long (on : Bool) (name : String) (args : List String) (s : State) : Effect :=
    match optionNames.lookup name, silentNames.contains name with
    | some c, _ => setOptions args (switch on c s)
    | none, true => setOptions args s
    | none, false => forsake ("set: Illegal option " ++ (if on then "-o " else "+o ") ++ name) s

private def set (args : List String) (s : State) : Effect :=
  if args.isEmpty then
    let sorted := s.bindings.mergeSort fun a b => !(b.1 < a.1)
    succeed (s.say (String.join (sorted.map fun v =>
      v.1 ++ "=" ++ Names.singleQuoted v.2.toList ++ "\n")))
  else setOptions args s

def pathOf (place : Machine.Place) : String := "/" ++ "/".intercalate place.reverse

private def cd (args : List String) (s : State) : Effect :=
  let enter (path : String) (said : Bool) : Effect :=
    match s.files.resolve (if path.isEmpty then "." else path) with
    | .ok place =>
      if s.files.entry? place == some .directory then
        let old := pathOf s.files.workingDirectory
        let s := { s with files := { s.files with workingDirectory := place } }
        let s := (s.assign "OLDPWD" old).assign "PWD" (pathOf place)
        succeed (if said then s.say (pathOf place ++ "\n") else s)
      else refuse ("cd: can't cd to " ++ path) 2 s
    | .error _ => refuse ("cd: can't cd to " ++ path) 2 s
  match optionsOf (.plain "LP") args with
  | .error e => refuse ("cd: " ++ e.message) 2 s
  | .ok g =>
    match g.arguments with
    | [] => enter ((s.bindings.lookup "HOME").getD "") false
    | "-" :: _ => enter ((s.bindings.lookup "OLDPWD").getD "") true
    | path :: _ => enter path false

private def pwd (args : List String) (s : State) : Effect :=
  match optionsOf (.plain "LP") args with
  | .error e => refuse ("pwd: " ++ e.message) 2 s
  | .ok _ => print (pathOf s.files.workingDirectory) s

/-- The commands that the shell has itself, besides those that no function may be named for. -/
def regularNames : List String :=
  ["alias", "bg", "cd", "chdir", "command", "echo", "false", "fg", "getopts", "hash", "jobs",
    "kill", "local", "printf", "pwd", "read", "test", "[", "true", "type", "ulimit", "umask",
    "unalias", "wait"]

/-- Where a program is that is called by its name. -/
private def programPath? (s : State) (name : String) : Option String :=
  if name.toList.contains '/' then
    match s.files.runnable name with
    | .ok _ => some name
    | .error _ => none
  else
    (Machine.Files.searchPath.map (· ++ "/" ++ name)).find? fun p =>
      match s.files.runnable p with
      | .ok _ => true
      | .error _ => false

/-- What a name stands for: in short, or in words. -/
private def meaning? (s : State) (name : String) : Option (String × String) :=
  if keywords.contains name then some (name, name ++ " is a shell keyword")
  else if specialNames.contains name then some (name, name ++ " is a special shell builtin")
  else if (s.procedures.lookup name).isSome then some (name, name ++ " is a shell function")
  else if let some value := s.aliases.lookup name then
    some ("alias " ++ name ++ "=" ++ Names.singleQuoted value.toList,
      name ++ " is an alias for " ++ value)
  else if regularNames.contains name then some (name, name ++ " is a shell builtin")
  else (programPath? s name).map fun p => (p, name ++ " is " ++ p)

private def describe (inShort : Bool) (args : List String) (s : State) : Effect :=
  args.foldl
    (fun e name =>
      match e with
      | .done s =>
        match meaning? s name with
        | some (short, long) => .done (s.say ((if inShort then short else long) ++ "\n"))
        | none =>
          .done ((if inShort then s else s.say (name ++ ": not found\n")).withStatus 127)
      | e => e) (succeed s)

/-- What a name stands for, in short or in words. -/
private def command (args : List String) (s : State) : Effect :=
  match optionsOf (.plain "pvV") args with
  | .error e => refuse ("command: " ++ e.message) 2 s
  | .ok g => describe (g.options.getLast?.map Prod.fst != some 'V') (g.arguments.take 1) s

/-- Looks programs up. -/
private def hash (args : List String) (s : State) : Effect :=
  match optionsOf (.plain "r") args with
  | .error e => refuse ("hash: " ++ e.message) 2 s
  | .ok g =>
    g.arguments.foldl
      (fun e name =>
        match e with
        | .done s =>
          let known := specialNames.contains name || regularNames.contains name
            || (s.procedures.lookup name).isSome || (programPath? s name).isSome
          if known then .done s else refuse ("hash: " ++ name ++ ": not found") 1 s
        | e => e) (succeed s)

private def jobs (args : List String) (s : State) : Effect :=
  match optionsOf (.plain "lp") args with
  | .error e => refuse ("jobs: " ++ e.message) 2 s
  | .ok _ => succeed s

/-- Runs a command by name; `none` when the shell has none of that name. -/
def run (name : String) (args : List String) (s : State) : Option Effect :=
  match name with
  | ":" => some (succeed s)
  | "true" => some (succeed s)
  | "false" => some (.done (s.withStatus 1))
  | "echo" => some (emit (Printing.echo args) s)
  | "printf" => some (Tool.printf args s)
  | "exit" => some (exit args s)
  | "return" => some (giveBack args s)
  | "break" => some (loops "break" .leave args s)
  | "continue" => some (loops "continue" .again args s)
  | "test" => some (Tool.test "test" args s)
  | "[" => some (Tool.test "[" args s)
  | "trap" => some (trap args s)
  | "ulimit" => some (Limits.ulimit args s)
  | "kill" => some (Tool.kill args s)
  | "wait" => some (wait args s)
  | "shift" => some (shift args s)
  | "export" => some (Names.exportNames args s)
  | "readonly" => some (Names.fixNames args s)
  | "local" => some (Names.localNames args s)
  | "unset" => some (Names.unsetNames args s)
  | "alias" => some (Names.aliases args s)
  | "unalias" => some (Names.unalias args s)
  | "getopts" => some (Names.getopts args s)
  | "set" => some (set args s)
  | "read" => some (Reading.read args s)
  | "cd" => some (cd args s)
  | "chdir" => some (cd args s)
  | "pwd" => some (pwd args s)
  | "umask" => some (Limits.umask args s)
  | "type" => some (describe false args s)
  | "command" => some (command args s)
  | "times" =>
    let line := "0m0.000000s 0m0.000000s\n"
    some (succeed (s.say (line ++ line)))
  | "hash" => some (hash args s)
  | "jobs" => some (jobs args s)
  | "fg" => some (refuse "fg: No current job" 2 s)
  | "bg" => some (refuse "bg: No current job" 2 s)
  | _ => none

end HeapPressure.Shell.Builtin
