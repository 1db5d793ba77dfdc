import HeapPressure.Shell.Carrier
import HeapPressure.Shell.Redirection

/-!
Scripts, run. A script that has not ended after very many commands counts as one that never does,
and one that calls itself too deeply runs out of stack.
-/
namespace HeapPressure.Shell

/-- What is known of a command from around it. -/
structure Mode where
  /-- Whether somebody asks how it went. -/
  tested : Bool := false
  /-- Whether the copy that runs it does nothing else afterwards, so that it can make place. -/
  last : Bool := false

namespace Mode

/-- For a command that others come after. -/
def onward (m : Mode) : Mode := { m with last := false }

/-- For a command that a copy is made for. -/
def alone (m : Mode) : Mode := { m with last := true }

end Mode

private def asksForOutput (ws : List Word) : Bool :=
  ws.any fun w => w.any fun p =>
    match p with
    | .output _ _ => true
    | _ => false

/-- What a loop makes of a turn: whether it goes on, and how it ends if it does not. -/
private def afterTurn : Flow → Option Flow
  | .next => none
  | .again 0 => none
  | .again (n + 1) => some (.again n)
  | .leave 0 => some .next
  | .leave (n + 1) => some (.leave n)
  | f => some f

/-- Goes through the values of a loop. -/
def eachValue (turn : String → State → Result) : List String → State → Result
  | [], s => (.next, s)
  | v :: vs, s =>
    let (f, s) := turn v s
    match afterTurn f with
    | none => eachValue turn vs s
    | some f => (f, s)

/-- Takes turns as long as the condition asks for more. -/
def turns (condition turn : State → Result) (negated : Bool) : Nat → Nat → State → Result
  | 0, _, s => (.stuck, s)
  | fuel + 1, status, s =>
    match condition s with
    | (.next, s) =>
      if (s.status == 0) == negated then (.next, s.withStatus status)
      else
        let (f, s) := turn s
        match afterTurn f with
        | none => turns condition turn negated fuel s.status s
        | some f => (f, s)
    | (f, s) =>
      match afterTurn f with
      | none => turns condition turn negated fuel status s
      | some f => (f, s)

/-- How many functions may call each other. -/
def maxCalls : Nat := 1000

/-- The function that is called, with its arguments. -/
private def entered (p : Procedure) (args : List String) (s : State) : State :=
  { s with
    args
    progress := {}
    locals := some []
    loops := 0
    firstLine := p.line
    calls := s.calls + 1 }

/-- Goes on after the call of a function. -/
private def returned (before : State) (r : Result) : Result :=
  let after := (r.2.locals.getD []).foldl (fun s l => s.reset l.1 l.2) r.2
  let after := { after with
    args := before.args
    progress := before.progress
    locals := before.locals
    loops := before.loops
    firstLine := before.firstLine
    calls := before.calls }
  match r.1 with
  | .back => (.next, after)
  | .leave _ => (.next, after)
  | .again _ => (.next, after)
  | f => (f, after)

/-- Gives assigned names back what they had. -/
private def unassigned (before : State) (names : List String) (s : State) : State :=
  names.foldl (fun s n => s.reset n (before.bindings.lookup n)) s

private def faulty (f : Fault) (line : Nat) (s : State) : State :=
  { s with line, firstLine := 1 }.complain ("Syntax error: " ++ f.message) 2

/-- Runs the lines of a script until one goes elsewhere. Each is read when it is reached. -/
def inLines (runLine : Bool → Command → State → Result) (count : Nat) :
    Nat → Tokens → State → Result
  | 0, _, s => (.stuck, s)
  | fuel + 1, ts, s =>
    match nextLine count s.aliases ts with
    | .finish => (.next, s)
    | .fault f line => (.exit, faulty f line s)
    | .line c rest =>
      match runLine (isOver rest) c s with
      | (.next, s) => inLines runLine count fuel rest s
      | r => r

/-- Runs a script with what runs a command. -/
private def scriptWith (runner : Mode → Command → State → Result) (mode : Mode) (text : List Char)
    (s : State) : Result :=
  let ts := tokensOf text
  inLines (fun isLast => runner { mode with last := mode.last && isLast }) ts.length
    (patience + ts.length) ts s

/-- Runs a script inside of a script, with what messages say of it. -/
private def headed (heading : String) (run : State → Result) (s : State) : Result :=
  let (f, after) := run ({ s with heading }.withStatus 0)
  (f, { after with heading := s.heading })

/-- Before a process ends by itself, its action on the exit is run. -/
private def departing (act : List Char → State → Result) (r : Result) : Result :=
  match isFinal r.1, r.2.traps.lookup 0 with
  | false, some (c :: cs) =>
    let (f, s) := act (c :: cs) { r.2 with traps := r.2.traps.filter fun t => t.1 != 0 }
    (f, if f == .exit then s else s.withStatus r.2.status)
  | _, _ => r

/-- Starts a shell with what runs a command. -/
private def shellWith (runner : Mode → Command → State → Result) (name : String)
    (args : List String) (s : State) : Result :=
  match invoked name args s with
  | .error s => (.exit, s)
  | .ok (text, s) => departing (scriptWith runner {}) (scriptWith runner {} text s)

/-- A failure that nobody asks about ends a script that wants it so. -/
private def checked (mode : Mode) (r : Result) : Result :=
  match r with
  | (.next, s) => if s.has 'e' && !mode.tested && s.status != 0 then (.exit, s) else r
  | r => r

/-- What a script writes that much of without coming to an end fills any memory. -/
def floodBytes : Nat := 0x10000

/-- How deep calls may nest. -/
def depth : Nat := 50000

/-- What the shell itself writes where nothing is open goes wrong. -/
private def shellHeard (name : String) (r : Result) : Result :=
  match r with
  | (.next, s) =>
    match s.written with
    | ⟨_, .closed, _, _⟩ :: written =>
      (.next, { s with written }.report (name ++ ": " ++ name ++ ": I/O error") 1)
    | _ => r
  | r => r

/-- Runs the script in a file, in place of the command that names it. -/
private def sourced (script : Mode → List Char → State → Result) (args : List String)
    (s : State) : Result :=
  match optionsOf [] args with
  | .error e => (.exit, s.report (".: " ++ e.message) 2)
  | .ok g =>
    match g.arguments with
    | [] => (.next, s.withStatus 0)
    | path :: _ =>
      if !path.toList.contains '/' then (.exit, s.report (".: " ++ path ++ ": not found") 2)
      else
        match s.files.read path with
        | .ok bytes =>
          match headed (path ++ ": ") (script {} (Text.Utf8.lossy bytes)) s with
          | (.back, s) => (.next, s)
          | r => r
        | .error _ => (.exit, s.report (".: cannot open " ++ path ++ ": No such file") 2)

/-- Runs a command, so deep. -/
def run : Nat → Mode → Command → State → Result
  | 0, _, _, s => (.died 11, s)
  | fuel + 1, mode, c, s =>
    let script := scriptWith (run fuel)
    let act : Action := script {}
    let departing := departing act
    let settled (r : Result) : Result := checked mode (delivered act r)
    let capture : Capture := fun text s =>
      let r := departing (script { last := true } text (intoPipe s))
      let (bytes, child) := splitPipe r.2
      if r.1 == .stuck && s.memoryLimit.isSome && bytes.length ≥ floodBytes then
        (abort "Out of space" : Expansion (List Char)) s
      else
        match ended false s (r.1, child) with
        | (.next, s) => .ok (Text.Utf8.lossy bytes, s)
        | r => .error r
    let shell := shellWith (run fuel)
    if s.has 'n' then (.next, s) else
    match c with
    | .nothing => (.next, s)
    | .sequence a b =>
      match run fuel (if b.isNothing then mode else mode.onward) a s with
      | (.next, s) => run fuel mode b s
      | r => r
    | .both a b =>
      match run fuel { tested := true } a s with
      | (.next, s) => if s.status = 0 then run fuel mode b s else (.next, s)
      | r => r
    | .either a b =>
      match run fuel { tested := true } a s with
      | (.next, s) => if s.status = 0 then (.next, s) else run fuel mode b s
      | r => r
    | .negate c =>
      match run fuel { tested := true } c s with
      | (.next, s) => (.next, s.withStatus (if s.status = 0 then 1 else 0))
      | r => r
    | .branch condition yes no =>
      match run fuel { tested := true } condition s with
      | (.next, s) =>
        if s.status = 0 then run fuel mode yes s
        else
          match no with
          | .nothing => (.next, s.withStatus 0)
          | no => run fuel mode no s
      | r => r
    | .loop negated condition body =>
      let (f, after) := turns (run fuel { tested := true } condition)
        (run fuel mode.onward body) negated (4 * patience) 0 { s with loops := s.loops + 1 }
      (f, { after with loops := s.loops })
    | .each name words body =>
      match fieldsOf capture words s with
      | .error r => r
      | .ok (values, s) =>
        let turn (v : String) (s : State) : Result :=
          match assignTo name v s with
          | .error r => r
          | .ok (_, s) => run fuel mode.onward body s
        let (f, after) := eachValue turn values { s with loops := s.loops + 1, status := 0 }
        (f, { after with loops := s.loops })
    | .choose subject arms =>
      match Word.asText capture subject s with
      | .error r => r
      | .ok (text, s) =>
        let fitting : Expansion (Option Command) := arms.findSomeM? fun (patterns, body) => do
          let found ← patterns.findM? fun w => do
            pure ((← Word.asPattern capture w).fitsText text)
          pure (found.map fun _ => body)
        match fitting s with
        | .error r => r
        | .ok (none, s) => (.next, s.withStatus 0)
        | .ok (some .nothing, s) => (.next, s.withStatus 0)
        | .ok (some body, s) => run fuel mode body s
    | .define name line body =>
      let others := s.procedures.filter fun p => p.1 != name
      (.next, { s with procedures := (name, ⟨line, body⟩) :: others, status := 0 })
    /- A writer that never ends does so when its reader has, if there is something left. -/
    | .pipe left right =>
      let (f, before) := departing (run fuel mode.alone left (intoPipe s))
      let (bytes, before) := splitPipe before
      let (g, after) := departing (run fuel mode.alone right { s.fork with
        files := before.files
        steps := if f == .stuck then s.steps else before.steps
        effort := before.effort
        input := bytes
        endlessInput := f == .stuck && !bytes.isEmpty })
      let broken := f == .stuck && !after.input.isEmpty
      let f := if broken then .exit else f
      let (f, s') := ended false s (f, { before with clock := s.clock })
      let (g, s') := ended false s' (g, { after with
        clock := max before.clock after.clock
        input := before.input
        endlessInput := s.endlessInput })
      settled (if isFinal f then f else g, s')
    | .background (.subshell body rs) =>
      match redirect capture rs (aside s) with
      | .error (_, child) => (.next, started s (.exit, child))
      | .ok (_, inner) => (.next, started s (departing (run fuel { last := true } body inner)))
    | .background c => (.next, started s (departing (run fuel { last := true } c (aside s))))
    | .subshell body rs =>
      match redirect capture rs s.fork with
      | .error (_, child) => settled (.next, s.join child)
      | .ok (_, inner) =>
        let (f, child) := departing (run fuel mode.alone body inner)
        settled (ended (mode.last && !s.hasTraps) s (f, restore s rs child))
    | .redirected body rs =>
      match redirect capture rs s with
      | .error (f, after) => (f, restore s rs after)
      | .ok (_, inner) =>
        let (f, after) := run fuel mode.onward body inner
        (f, restore s rs after)
    | .simple line assigns words rs =>
      match interrupted act s with
      | (.next, s) =>
        let s := { s with line, steps := s.steps + 1, effort := s.effort + 1 }
        match fieldsOf capture words s with
        | .error r => r
        | .ok (fields, expanded) =>
          let call := callOf fields
          let special := (call.words.head?.any specialNames.contains) && !call.direct
          let assigning : Expansion (List (String × String)) := do
            redirect capture rs
            assigns.mapM fun (name, w) => do
              let v ← Word.asValue capture w
              let s ← get
              if s.fixed.contains name then abort (name ++ ": is read only")
              else if name == "OPTIND" && (natural? v).isNone then abort ("Illegal number: " ++ v)
              else pure (name, v)
          match assigning expanded with
          | .error (f, after) =>
            if special || call.inPlace then (.exit, after)
            else settled (f, restore s rs after)
          | .ok (values, inner) =>
            let inner :=
              if inner.has 'x' then
                let shown := values.map (fun v => v.1 ++ "=" ++ v.2) ++ fields
                let said := { inner with streams := s.streams }.mention
                  ((inner.bindings.lookup "PS4").getD "" ++ " ".intercalate shown)
                { said with streams := inner.streams }
              else inner
            let assigned := values.foldl (fun s v => s.assign v.1 v.2) inner
            let names := values.map Prod.fst
            let program (name : String) (args : List String) : Result :=
              match programOf inner name with
              | .error (message, status) =>
                if call.inPlace then (.exit, inner.report ("exec: " ++ message) status)
                else (.next, inner.complain message status)
              | .ok program =>
                let replaced := call.inPlace || (mode.last && !inner.hasTraps)
                let exported := values ++ inner.environment.filter fun v => !names.contains v.1
                let child := inner.spawned (replaced && !inner.isCopy) exported
                let (f, after) := ended replaced inner (runTool shell fuel name program args child)
                if call.inPlace && f == .next then
                  (.exit, { after with traps := after.traps.filter fun t => t.2.isEmpty })
                else (f, after)
            let builtin (e : Effect) : Result :=
              match e with
              | .done s => (.next, s)
              | .forsaken s => (if call.direct then .next else .exit, s)
              | .turn f s => (f, s)
              | .signal n s => receive act n s
            match call.words with
            | [] =>
              let after := values.foldl
                (fun s v => if s.has 'a' then { s with exported := v.1 :: s.exported } else s)
                assigned
              let after :=
                if asksForOutput (assigns.map Prod.snd ++ words) then after else after.withStatus 0
              settled (.next, if call.inPlace then after else restore s rs after)
            | name :: args =>
              let r : Result :=
                if call.inPlace || name.toList.contains '/' then program name args
                else
                  match name, special || call.direct, assigned.procedures.lookup name with
                  | "eval", _, _ =>
                    headed "eval: " (script mode.onward (" ".intercalate args).toList)
                      assigned
                  | ".", _, _ => sourced script args assigned
                  | _, false, some p =>
                    if assigned.calls < maxCalls then
                      let (f, after) := returned assigned
                        (run fuel mode.onward p.body (entered p args assigned))
                      (f, unassigned inner names after)
                    else
                      (.exit, assigned.complain ("Maximum function recursion depth ("
                        ++ toString maxCalls ++ ") reached") 2)
                  | _, _, _ =>
                    match Builtin.run name args assigned with
                    | some e =>
                      let (f, after) := shellHeard name (builtin e)
                      (f, if special then after else unassigned inner names after)
                    | none => program name args
              settled (r.1, if r.1 == .exit && call.inPlace then r.2 else restore s rs r.2)
      | r => r

/-- Runs a shell from its arguments to its end. -/
def runShell (name : String) (args : List String) (s : State) : Result :=
  shellWith (run depth) name args s

/-- Runs a program from its start to its end. -/
def runProgram (program : String) (args : List String) (s : State) : Result :=
  runTool runShell 8 s.name program args s

end HeapPressure.Shell
