import HeapPressure.Shell.Condition
import HeapPressure.Shell.Passing
import HeapPressure.Shell.Printing

/-!
The programs that scripts can call besides the shell itself.
-/
namespace HeapPressure.Shell

/-- What a command does to the process that runs it. -/
inductive Effect where
  | done (s : State)
  /-- The command goes wrong so badly that the script ends. -/
  | forsaken (s : State)
  | turn (f : Flow) (s : State)
  /-- The process sends itself a signal. -/
  | signal (n : Nat) (s : State)

namespace Effect

def succeed (s : State) : Effect := .done (s.withStatus 0)

/-- Says what is wrong, as the shell does. -/
def refuse (text : String) (status : Nat) (s : State) : Effect := .done (s.report text status)

/-- As `refuse`, where nothing comes after. -/
def forsake (text : String) (s : State) : Effect := .forsaken (s.report text 2)

/-- Says what is wrong in words of its own. -/
def protest (text : String) (status : Nat) (s : State) : Effect :=
  .done ((s.mention text).withStatus status)

/-- Writes and succeeds. -/
def emit (bytes : List UInt8) (s : State) : Effect := succeed (s.write 1 bytes)

/-- Writes a line and succeeds. -/
def print (text : String) (s : State) : Effect := succeed (s.say (text ++ "\n"))

end Effect

namespace Tool

open Effect

/-- A pause in milliseconds; `none` in the inner option when it never ends. -/
def pause? (text : String) : Option (Option Nat) :=
  let digits := text.toList.takeWhile Char.isDigit
  let rest := text.toList.drop digits.length
  let (fraction, unit) :=
    match rest with
    | '.' :: rest =>
      let fraction := rest.takeWhile Char.isDigit
      (fraction, rest.drop fraction.length)
    | rest => ([], rest)
  let scale : Option Nat :=
    match unit with
    | [] => some 1
    | ['s'] => some 1
    | ['m'] => some 60
    | ['h'] => some 3600
    | ['d'] => some 86400
    | _ => none
  if text == "infinity" || text == "inf" then some none
  else if digits.isEmpty && fraction.isEmpty then none
  else
    scale.map fun k =>
      let number := (digits ++ fraction).foldl (fun n d => n * 10 + (d.toNat - 48)) 0
      let parts := Nat.pow 10 fraction.length
      some ((number * k * 1000 + parts - 1) / parts)

/-- Names the program and says what is wrong. -/
private def complaint (text : String) (status : Nat) (s : State) : Effect :=
  protest (s.name ++ ": " ++ text) status s

/-- Says what is wrong with the arguments. -/
private def misuse (text : String) (s : State) : Effect :=
  complaint (text ++ "\nTry '" ++ s.name ++ " --help' for more information.") 1 s

private def missing (s : State) : Effect := misuse "missing operand" s

private def sleep (args : List String) (s : State) : Effect :=
  match args with
  | [] => missing s
  | _ =>
    match args.find? fun a => (pause? a).isNone with
    | some a => misuse ("invalid time interval '" ++ a ++ "'") s
    | none =>
      match args.mapM fun a => (pause? a).join with
      | some pauses => succeed { s with clock := s.clock + pauses.foldl (· + ·) 0 }
      | none => .turn .stuck s

/-- What a command reads, and whether there is more without end. -/
structure Source where
  bytes : List UInt8
  endless : Bool := false

/-- A file, or the input for a hyphen; a message where there is neither. -/
private def source (path : String) (s : State) : Except String Source :=
  if path == "-" then .ok ⟨s.input, s.endlessInput⟩
  else
    match s.files.read path with
    | .ok bytes => .ok ⟨bytes, s.files.isEndless path⟩
    | .error e => .error (s.name ++ ": " ++ path ++ ": " ++ e.reason)

/-- The state after a source was read to its end. -/
private def emptied (path : String) (s : State) : State :=
  if path == "-" then { s with input := [] } else s

private def isOption (a : String) : Bool := a.startsWith "-" && a != "-"

private def catFrom (status : Nat) (s : State) : List String → Effect
  | [] => .done (s.withStatus status)
  | path :: paths =>
    match source path s with
    | .error message => catFrom 1 (s.mention message) paths
    | .ok src =>
      if src.endless then .turn .stuck (s.write 1 src.bytes)
      else catFrom status (emptied path (s.write 1 src.bytes)) paths

private def cat (args : List String) (s : State) : Effect :=
  let paths := args.filter fun a => !isOption a
  catFrom 0 s (if paths.isEmpty then ["-"] else paths)

/-- The number behind an option, attached or in the next argument, and the other arguments. -/
private def numbered (option : String) : List String → Option (Nat × List String)
  | [] => none
  | a :: args =>
    if a == option then
      match args with
      | n :: rest => (natural? n).map fun n => (n, rest)
      | [] => none
    else if a.startsWith option then
      (natural? (a.drop option.length).toString).map fun n => (n, args)
    else (numbered option args).map fun r => (r.1, a :: r.2)

private def operands (args : List String) : List String := args.filter fun a => !isOption a

/-- Changes a file or the input and passes it on. What has no end is passed on without end. -/
private def filtered (paths : List String) (s : State) (change : List UInt8 → List UInt8) :
    Effect :=
  let path := paths.head?.getD "-"
  match source path s with
  | .error message => protest message 1 s
  | .ok src =>
    if src.endless then .turn .stuck (s.write 1 (change src.bytes))
    else emit (change src.bytes) (emptied path s)

/-- As `filtered`, for a change that waits for the end. A line without end is too much for the
memory. -/
private def gathered (paths : List String) (s : State) (change : List UInt8 → List UInt8) :
    Effect :=
  match source (paths.head?.getD "-") s with
  | .ok ⟨bytes, true⟩ =>
    if s.memoryLimit.isSome && !bytes.contains 10 then complaint "memory exhausted" 1 s
    else .turn .stuck s
  | _ => filtered paths s change

/-- As `gathered`, for a change that remembers no lines. -/
private def counted (paths : List String) (s : State) (change : List UInt8 → List UInt8) :
    Effect :=
  match source (paths.head?.getD "-") s with
  | .ok ⟨_, true⟩ => .turn .stuck s
  | _ => filtered paths s change

/-- Passes the beginning on, up to where it is `enough`, and leaves the rest of the input. Of a
file without end there is always enough, while an input may keep one waiting. -/
private def firstOf (amount : Nat) (paths : List String) (s : State) (enough : List UInt8 → Bool)
    (change : List UInt8 → List UInt8) : Effect :=
  let path := paths.head?.getD "-"
  match source path s with
  | .error message => protest message 1 s
  | .ok src =>
    if path == "-" then
      let taken := change s.input
      let after := { s with input := s.input.drop taken.length }.write 1 taken
      if src.endless && !enough s.input then .turn .stuck after else succeed after
    else emit (if src.endless then List.replicate amount 0 else change src.bytes) s

private def head (args : List String) (s : State) : Effect :=
  let bytes (n : Nat) (paths : List String) : Effect :=
    firstOf n paths s (fun bs => n ≤ bs.length) (List.take n)
  let lines (n : Nat) (paths : List String) : Effect :=
    firstOf 0 paths s (fun bs => n ≤ Passing.countLines bs) (Passing.firstLines n)
  match numbered "-c" args, numbered "-n" args, numbered "-" args with
  | some (n, rest), _, _ => bytes n rest
  | none, some (n, rest), _ => lines n rest
  | none, none, some (n, rest) => lines n rest
  | none, none, none => lines 10 (operands args)

private def tail (args : List String) (s : State) : Effect :=
  let last (n : Nat) (bytes : List UInt8) : List UInt8 := bytes.drop (bytes.length - n)
  match numbered "-c" args, numbered "-n" args, numbered "-" args with
  | some (n, rest), _, _ => counted rest s (last n)
  | none, some (n, rest), _ => gathered rest s (Passing.lastLines n)
  | none, none, some (n, rest) => gathered rest s (Passing.lastLines n)
  | none, none, none => gathered (operands args) s (Passing.lastLines 10)

private def sort (args : List String) (s : State) : Effect :=
  let has (option : String) : Bool := args.contains option
  gathered (operands args) s fun bytes =>
    let lines := Passing.sortLines (has "-n") (Passing.linesOf bytes)
    let lines := if has "-r" then lines.reverse else lines
    Passing.joinLines (if has "-u" then Passing.withoutRepeats lines else lines)

private def tr (args : List String) (s : State) : Effect :=
  match args with
  | ["-d", set] => filtered [] s (Passing.delete (Passing.setOf set))
  | [set, other] =>
    filtered [] s (Passing.exchange (Passing.setOf set) (Passing.setOf other))
  | _ => missing s

/-- Counts what one option asks for. A file's name stands behind its count. -/
private def wc (args : List String) (s : State) : Effect :=
  let measure : List UInt8 → Nat :=
    match args.find? isOption with
    | some "-l" => Passing.countLines
    | some "-w" => Passing.countWords
    | _ => List.length
  let name := ((operands args).head?.map (" " ++ ·)).getD ""
  counted (operands args) s fun bytes =>
    Text.Utf8.encode (toString (measure bytes) ++ name ++ "\n").toList

/-- Writes a line without end. -/
private def yes (args : List String) (s : State) : Effect :=
  let line := Text.Utf8.encode ((if args.isEmpty then "y" else " ".intercalate args) ++ "\n").toList
  let count := Machine.Files.endlessBytes / line.length + 1
  .turn .stuck (s.write 1 (List.replicate count line).flatten)

private def seq (args : List String) (s : State) : Effect :=
  let lines (first step last : Int) : Effect :=
    let count := if step = 0 then 0 else (last - first) / step + 1
    emit ((List.range count.toNat).flatMap fun (i : Nat) =>
      Text.Utf8.encode (toString (first + step * (i : Int)) ++ "\n").toList) s
  match args.mapM String.toInt? with
  | some [last] => lines 1 1 last
  | some [first, last] => lines first 1 last
  | some [first, step, last] => lines first step last
  | _ => missing s

private def printenv (args : List String) (s : State) : Effect :=
  let lines (values : List String) : Effect :=
    emit (values.flatMap fun v => Text.Utf8.encode (v ++ "\n").toList) s
  if args.isEmpty then lines (s.bindings.map fun v => v.1 ++ "=" ++ v.2)
  else
    match args.mapM (fun a => s.bindings.lookup a) with
    | some values => lines values
    | none => .done (s.withStatus 1)

private def tee (args : List String) (s : State) : Effect :=
  let paths := args.filter fun a => !isOption a
  let s := paths.foldl
    (fun s p =>
      match s.files.resolveNew p with
      | .ok place => { s with files := s.files.add place (.file s.input) }
      | .error _ => s) s
  emit s.input { s with input := [] }

private def rm (args : List String) (s : State) : Effect :=
  let force := args.any fun a => isOption a && a.toList.contains 'f'
  (args.filter fun a => !isOption a).foldl
    (fun e p =>
      match e with
      | .done s =>
        match s.files.resolve p with
        | .ok place => .done { s with files := s.files.remove place }
        | .error reason =>
          if force then .done s
          else complaint ("cannot remove '" ++ p ++ "': " ++ reason.reason) 1 s
      | e => e) (succeed s)

/-- Puts new things at paths where there are none. -/
private def create (entry : Machine.Entry) (args : List String) (s : State) : Effect :=
  succeed ((args.filter fun a => !isOption a).foldl
    (fun s p =>
      match s.files.resolve p, s.files.resolveNew p with
      | .error _, .ok place => { s with files := s.files.add place entry }
      | _, _ => s) s)

private def baseName (path : String) : String :=
  let names := (path.splitOn "/").filter (· != "")
  names.getLast?.getD "/"

private def directoryName (path : String) : String :=
  match ((path.splitOn "/").reverse.dropWhile (· == "")).tail.dropWhile (· == "") with
  | [] => if path.startsWith "/" then "/" else "."
  | names => "/".intercalate names.reverse

private def withoutEnding (ending text : String) : String :=
  if text.endsWith ending && text != ending then (text.dropEnd ending.length).toString else text

private def answer (name : String) (words : List String) (s : State) : Effect :=
  match Condition.test s (words.length + 2) words with
  | .ok true => .done (s.withStatus 0)
  | .ok false => .done (s.withStatus 1)
  | .error message => refuse (name ++ ": " ++ message) 2 s

/-- The condition of "test", or between brackets. -/
def test (name : String) (args : List String) (s : State) : Effect :=
  if name == "test" then answer name args s
  else if args.getLast? == some "]" then answer name args.dropLast s
  else refuse "[: missing ]" 2 s

def printf (args : List String) (s : State) : Effect :=
  match args with
  | [] => refuse "printf: usage: printf format [arg ...]" 2 s
  | "--" :: format :: args => go format args
  | format :: args =>
    if isOption format then
      refuse ("printf: Illegal option " ++ (format.take 2).toString) 2 s
    else go format args
where
  /-- What is written comes out at the end, behind what is wrong. -/
  go (format : String) (args : List String) : Effect :=
    let p := Printing.printf format args
    let s := p.complaints.reverse.foldl
      (fun s c => s.report ("printf: " ++ c) (if p.broken then 2 else 1)) (s.withStatus 0)
    .done (s.write 1 p.bytes)

/-- Whether there is a process of that number besides this one. -/
private def reaches (s : State) (n : Nat) : Bool :=
  n = s.number || s.ancestors.contains n
    || ((s.jobPlace? n).bind fun i => s.jobs[i]?).any fun job =>
      !job.settled && (job.runsAt s.clock || job.finish == some s.clock)

/-- Sends a signal: to this process, to one that waits for it, or to a job. -/
private def sendOne (signal : Nat) (target : String) (s : State) : Effect :=
  let missing : Effect := refuse "kill: No such process\n" 1 s
  let group := target.startsWith "-"
  if target.startsWith "%" then
    match natural? (target.drop 1).toString with
    | some n =>
      if 0 < n && n ≤ s.jobs.length then missing
      else refuse ("kill: No such job: " ++ target) 2 s
    | none => refuse ("kill: No such job: " ++ target) 2 s
  else
    match natural? (if group then (target.drop 1).toString else target) with
    | none =>
      refuse ("kill: Illegal number: " ++ (if group then (target.drop 1).toString else target)) 2 s
    | some n =>
      let top := s.ancestors.getLast?.getD s.number
      let n := if n = 0 then top else n
      if group && n != top then missing
      else if !reaches s n then missing
      else if n = s.number && !s.isCopy then .signal signal (s.withStatus 0)
      else succeed (s.post ⟨n, signal, s.clock⟩)

/-- Sends a signal to one process after the other; a fault in an argument ends that. -/
def send (signal status : Nat) (s : State) : List String → Effect
  | [] => .done (s.withStatus status)
  | t :: ts =>
    match sendOne signal t s with
    | .done after =>
      if after.status = 2 then .done after else send signal (max status after.status) after ts
    | e => e

private def listSignals : String :=
  String.join ("0\n" :: (List.range Signal.last).map fun n => Signal.nameOf (n + 1) ++ "\n")

def kill (args : List String) (s : State) : Effect :=
  let usage : Effect := refuse
    ("kill: Usage: kill [-s sigspec | -signum | -sigspec] [pid | job]... or\n"
      ++ "kill -l [exitstatus]") 2 s
  let sent (signal : Nat) (targets : List String) : Effect :=
    if targets.isEmpty then usage else send signal 0 s targets
  let named (name : String) : Option Nat :=
    (Signal.ofText? name).filter fun n => n != 0 || name.toNat?.isSome
  let byOptions : Effect :=
    match optionsOf [('l', false), ('s', true)] args with
    | .error e => refuse ("kill: " ++ e.message) 2 s
    | .ok g =>
      match g.options.lookup 's', g.has 'l', g.arguments with
      | some name, false, targets =>
        match named name with
        | some n => sent n targets
        | none => refuse ("kill: invalid signal number or name: " ++ name) 2 s
      | some _, true, _ => usage
      | none, true, [] => emit (Text.Utf8.encode listSignals.toList) s
      | none, true, n :: _ =>
        match natural? n with
        | some k =>
          let k := if k > 128 then k - 128 else k
          if 0 < k && k ≤ Signal.last then print (Signal.nameOf k) s
          else refuse ("kill: invalid signal number or exit status: " ++ n) 2 s
        | none => refuse ("kill: Illegal number: " ++ n) 2 s
      | none, false, targets => sent 15 targets
  match args with
  | [] => usage
  | a :: targets =>
    if a.startsWith "-" then
      match named (a.drop 1).toString with
      | some n => sent n targets
      | none => byOptions
    else sent 15 args

/-- Runs a program by name; `none` when there is none of that name. -/
def run (name : String) (args : List String) (s : State) : Option Effect :=
  match name with
  | "true" => some (succeed s)
  | "false" => some (.done (s.withStatus 1))
  | "echo" => some (emit (Printing.plainEcho true false args) s)
  | "printf" => some (printf args s)
  | "sleep" => some (sleep args s)
  | "cat" => some (cat args s)
  | "head" => some (head args s)
  | "tail" => some (tail args s)
  | "sort" => some (sort args s)
  | "tr" => some (tr args s)
  | "wc" => some (wc args s)
  | "yes" => some (yes args s)
  | "seq" => some (seq args s)
  | "printenv" => some (printenv args s)
  | "tee" => some (tee args s)
  | "rm" => some (rm args s)
  | "touch" => some (create (.file []) args s)
  | "mkdir" => some (create .directory args s)
  | "basename" =>
    some (print (withoutEnding ((args[1]?).getD "") (baseName ((args.head?).getD ""))) s)
  | "dirname" => some (print (directoryName ((args.head?).getD "")) s)
  | "test" => some (test "test" args s)
  | "[" => some (test "[" args s)
  | "kill" => some (kill args s)
  | _ => none

end Tool
end HeapPressure.Shell
