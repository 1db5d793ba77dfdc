import HeapPressure.Shell.Call
import HeapPressure.Shell.Child

/-!
Other programs, run: each needs room for itself, and some of them run another one in their place or
for a time.
-/
namespace HeapPressure.Shell

/-- The memory that a program takes to begin at all. -/
def imageBytes : Nat := 0x80000

/-- The memory that it takes with its library. -/
def loadedBytes : Nat := 0x280000

/-- How a program ends that finds no room for itself or for its library. -/
def crowdedOut? (called : String) (s : State) : Option Result :=
  match s.memoryLimit with
  | none => none
  | some limit =>
    if limit < imageBytes then some (.died 11, s)
    else if limit < loadedBytes then
      let text := called ++ ": error while loading shared libraries: libc.so.6: "
        ++ "failed to map segment from shared object"
      some (.exit, (s.mention text).withStatus 127)
    else none

namespace Carrier

/-- How programs that run another one say that they cannot. -/
def failing (carrier name : String) : String :=
  if carrier == "env" || carrier == "nice" then "'" ++ name ++ "'"
  else if carrier == "setsid" then "failed to execute " ++ name
  else "failed to run command '" ++ name ++ "'"

/-- Says what is wrong, and that there is help. -/
def misuse (called : String) (status : Nat) (text : Option String) (s : State) : Result :=
  let s := text.elim s fun t => s.mention (called ++ ": " ++ t)
  (.exit, (s.mention ("Try '" ++ called ++ " --help' for more information.")).withStatus status)

/-- The values that another program gets, with what is left of the arguments: some names or all
lose theirs, others get new ones. -/
def surroundings (g : Given) (s : State) : List String × State :=
  let isBare := g.has 'i' || g.arguments.head? == some "-"
  let args := if g.arguments.head? == some "-" then g.arguments.drop 1 else g.arguments
  let s := if isBare then { s with bindings := [], exported := [] } else s
  let s := g.options.foldl (fun s o => if o.1 == 'u' then s.unset o.2 else s) s
  let given := args.takeWhile fun a => (assignment? a).isSome
  (args.drop given.length, (given.filterMap assignment?).foldl
    (fun s v => { s.assign v.1 v.2 with exported := v.1 :: s.exported }) s)

/-- How a program is watched: what it gets when its time is over, what comes after a further time
if it goes on, and whether its status counts nevertheless. -/
structure Watch where
  pause : Nat
  signal : Nat := 15
  killAfter : Option Nat := none
  keepsStatus : Bool := false

/-- Ends a program that is not over in time. -/
def overseen (w : Watch) (run : State → Result) (s : State) : Result :=
  let time := s.clock + w.pause
  let (f, after) := run { s with alarms := [(time, w.signal)] }
  let after := { after with alarms := [] }
  let resists := (meet w.signal after).all fun r => r.1 == .next
  if f != .stuck && after.clock < time then (f, after)
  else if resists && !isFinal f then
    match w.killAfter with
    | some more =>
      if time + more < after.clock then (.died Signal.kill, after.cutAt (time + more))
      else (.exit, if w.keepsStatus then after else after.withStatus 124)
    | none => (.exit, if w.keepsStatus then after else after.withStatus 124)
  else if resists && f == .stuck && (meet w.signal after).isSome then
    match w.killAfter with
    | some more => (.died Signal.kill, { after.cutAt (time + more) with clock := time + more })
    | none => (.stuck, after)
  else
    let cut := { after.cutAt time with clock := time }
    if w.signal = Signal.kill then (.died Signal.kill, cut)
    else (.exit, cut.withStatus (if w.keepsStatus then 128 + w.signal else 124))

/-- What the arguments of a watching program say, and the command that it runs; or what is wrong
with them. -/
def watch? (args : List String) : Except (Option String) (Option Watch × List String) :=
  let names := [("signal", 's'), ("kill-after", 'k'), ("preserve-status", 'p'),
    ("foreground", 'f'), ("verbose", 'v')]
  match optionsOf [('s', true), ('k', true), ('p', false), ('f', false), ('v', false)]
      (shortened names args) with
  | .error e => .error (some e.complaint)
  | .ok g =>
    let interval (text : String) : Except (Option String) (Option Nat) :=
      match Tool.pause? text with
      | some pause => .ok pause
      | none => .error (some ("invalid time interval '" ++ text ++ "'"))
    match g.arguments with
    | limit :: name :: words => do
      let killAfter ← (g.options.lookup 'k').elim (pure none) interval
      let signal ← (g.options.lookup 's').elim (pure 15) fun name =>
        match Signal.ofText? name with
        | some n => pure n
        | none => throw (some ("'" ++ name ++ "': invalid signal"))
      let pause ← interval limit
      let watch (p : Nat) : Watch := ⟨p, signal, killAfter, g.has 'p'⟩
      pure ((pause.filter (· != 0)).map watch, name :: words)
    | _ => .error none

end Carrier

/-- What a program writes where nothing is open goes wrong. -/
private def programHeard (program : String) (r : Result) : Result :=
  match r with
  | (f, s) =>
    match s.written with
    | ⟨_, .closed, _, _⟩ :: written =>
      let what := if program == "cat" then "standard output" else "write error"
      let said := { s with written }.mention (s.name ++ ": " ++ what ++ ": Bad file descriptor")
      (f, said.withStatus 1)
    | _ => r

/-- A program that works without end may use up its time. -/
private def tired (program : String) (r : Result) : Result :=
  match r with
  | (.stuck, s) =>
    match exhaustion? s with
    | some (time, n) => if program == "sleep" then r else (.died n, { s with clock := time })
    | none => r
  | r => r

/-- Runs a program, called by a name or path, in a process that has room for it. -/
def runTool (shell : String → List String → State → Result) :
    Nat → String → String → List String → State → Result
  | 0, _, _, _, s => (.exit, s)
  | fuel + 1, called, program, args, s =>
    let onward (words : List String) (s : State) : Result :=
      match words with
      | [] => Carrier.misuse called 125 (some "missing operand") s
      | name :: args =>
        match programNamed s name with
        | .ok program => runTool shell fuel name program args s
        | .error e =>
          let said := s.mention
            (called ++ ": " ++ Carrier.failing program name ++ ": " ++ e.reason)
          (.exit, said.withStatus (if e == .permissionDenied then 126 else 127))
    let carried (known : Letters) (args : List String) (go : Given → Result) : Result :=
      match optionsOf known args with
      | .error e => Carrier.misuse called 125 (some e.complaint) s
      | .ok g => go g
    match crowdedOut? called s with
    | some r => r
    | none =>
      match program with
      | "sh" => shell called args s
      | "env" =>
        let names := [("ignore-environment", 'i'), ("unset", 'u')]
        carried [('i', false), ('u', true)] (shortened names args) fun g =>
          match Carrier.surroundings g s with
          | ([], s) => runTool shell fuel called "printenv" [] s
          | (words, s) => onward words s
      | "nice" =>
        let args := args.dropWhile fun a =>
          a.startsWith "-" && (natural? (a.drop 1).toString).isSome
        carried [('n', true)] (shortened [("adjustment", 'n')] args) fun g =>
          if g.arguments.isEmpty then (.exit, (s.say "0\n").withStatus 0)
          else onward g.arguments s
      | "nohup" => carried [] args fun g => onward g.arguments { s with deaf := 1 :: s.deaf }
      | "setsid" =>
        carried (.plain "cfw") args fun g =>
          if g.arguments.isEmpty then Carrier.misuse called 1 (some "no command specified") s
          else onward g.arguments s
      | "timeout" =>
        match Carrier.watch? args with
        | .error text => Carrier.misuse called 125 text s
        | .ok (none, words) => onward words s
        | .ok (some w, words) => Carrier.overseen w (onward words) s
      | _ =>
        match Tool.run program args { s with name := called } with
        | some (.done s) => programHeard program (.exit, s)
        | some (.forsaken s) => (.exit, s)
        | some (.turn f s) => tired program (f, s)
        | some (.signal n s) => (meet n s).getD (.exit, s)
        | none => (.exit, s)

end HeapPressure.Shell
