import HeapPressure.Machine.Files
import HeapPressure.Shell.Command
import HeapPressure.Shell.Options
import HeapPressure.Shell.Signal
import HeapPressure.Text.Utf8

/-!
A process while it runs a script: what it knows, what it has written and when. Time is that of
the pauses it makes; all else takes none.
-/
namespace HeapPressure.Shell

/-- A number of digits alone, as options and arguments give it. -/
def natural? (s : String) : Option Nat :=
  match s.toNat? with
  | some n => if n < 0x80000000 && s.toList.all Char.isDigit then some n else none
  | none => none

/-- Splits an assignment. -/
def assignment? (text : String) : Option (String × String) :=
  let name := text.toList.takeWhile (· != '=')
  match text.toList.drop name.length with
  | [] => none
  | _ :: value => some (String.ofList name, String.ofList value)

inductive Stream where
  /-- Where what is written is lost and reported. -/
  | closed
  | output
  | error
  /-- Read by another command of the same script. -/
  | pipe
  | file (place : Machine.Place)
  | nowhere
deriving DecidableEq

structure Write where
  time : Nat
  stream : Stream
  bytes : List UInt8
  /-- The background process that wrote, by its serial number; 0 stands for the script. -/
  owner : Nat := 0
deriving DecidableEq

/-- What became of a command: the script goes on behind it, behind the loops around it or behind
the call of the function it is in, or this copy of the process is over, or the process itself
is, or it never ends. -/
inductive Flow where
  | next
  | leave (loops : Nat)
  | again (loops : Nat)
  | back
  | exit
  /-- A signal ends the copy of the process that runs this part of the script. -/
  | died (signal : Nat)
  /-- A signal ends the process of the script. -/
  | killed (signal : Nat)
  | stuck
deriving DecidableEq

/-- A process started in the background: when it ends, if it does, and how. -/
structure Job where
  finish : Option Nat
  status : Nat
  /-- The signal that ended it. -/
  signal : Option Nat := none
  serial : Nat := 0
  /-- The signals that it does not mind. -/
  ignored : List Nat := []
  /-- Whether its end was waited for. -/
  settled : Bool := false
deriving DecidableEq

/-- Whether a job goes on beyond a time. -/
def Job.runsAt (time : Nat) (j : Job) : Bool := (j.finish.map fun t => decide (time < t)).getD true

/-- A signal on its way from one process to another. -/
structure Message where
  target : Nat
  signal : Nat
  time : Nat
deriving DecidableEq

/-- A function: its body and the line it begins on. -/
structure Procedure where
  line : Nat
  body : Command

/-- A limit as it is in force, and the highest that it may be set to; `none` is no limit. -/
structure Limit where
  soft : Option Nat := none
  hard : Option Nat := none
deriving DecidableEq

structure State where
  files : Machine.Files
  /-- The limits that there are, by the letters of their options. -/
  limits : List (Char × Limit) := []
  /-- The permissions that new files do not get. -/
  mask : Nat := 18
  /-- What the script is called in messages. -/
  name : String
  /-- The command that scripts inside of the script are run by, as it stands in messages. -/
  heading : String := ""
  args : List String := []
  /-- How far the options among the arguments have been taken. -/
  progress : Progress := {}
  bindings : List (String × String) := []
  /-- The names whose values other programs get. -/
  exported : List String := []
  /-- The names whose values stay. -/
  fixed : List String := []
  procedures : List (String × Procedure) := []
  aliases : List (String × String) := []
  /-- How many functions call each other. -/
  calls : Nat := 0
  /-- The values that the names local to the function had outside of it. -/
  locals : Option (List (String × Option String)) := none
  options : List Char := []
  /-- How many loops there are around the command. -/
  loops : Nat := 0
  line : Nat := 1
  /-- The line that counts as the first. -/
  firstLine : Nat := 1
  streams : List (Nat × Stream) := [(1, .output), (2, .error)]
  input : List UInt8 := []
  /-- Whether more input comes without end. -/
  endlessInput : Bool := false
  /-- Actions on signals, an empty one ignoring them; number 0 stands for the exit. -/
  traps : List (Nat × List Char) := []
  /-- The signals that were ignored when the process began, which it cannot change. -/
  deaf : List Nat := []
  status : Nat := 0
  clock : Nat := 0
  /-- How many commands there were since the last pause that a signal made. -/
  steps : Nat := 0
  /-- How many commands there were in all, in processes that never end as well. -/
  effort : Nat := 0
  /-- The latest first. -/
  written : List Write := []
  /-- The latest first. -/
  jobs : List Job := []
  /-- How many background processes there have been. -/
  serial : Nat := 0
  number : Nat := 4000
  /-- The numbers of the processes that wait for this one, the nearest first. -/
  ancestors : List Nat := []
  /-- Whether this is a copy of the process of that number. -/
  isCopy : Bool := false
  /-- Signals sent to processes that wait for this one. -/
  sent : List Message := []
  /-- The signals on their way to this process, with their times, the earliest first. -/
  alarms : List (Nat × Nat) := []

/-- The letters of the options of the shell, as the one parameter lists them. -/
def optionLetters : List Char := "pubaCEVvxsnmiIfe".toList

namespace State

def limit (s : State) (letter : Char) : Limit := (s.limits.lookup letter).getD {}

/-- The limit on memory in bytes. -/
def memoryLimit (s : State) : Option Nat := (s.limit 'v').soft

def stream (s : State) (n : Nat) : Stream := (s.streams.lookup n).getD .closed

def write (n : Nat) (bytes : List UInt8) (s : State) : State :=
  match s.stream n with
  | .nowhere => s
  | .closed => if n = 1 && !bytes.isEmpty then record .closed else s
  | .file place => { s with files := s.files.append place bytes }
  | stream => record stream
where
  record (stream : Stream) : State :=
    { s with written := { time := s.clock, stream, bytes } :: s.written }

def say (text : String) (s : State) : State := s.write 1 (Text.Utf8.encode text.toList)

/-- Writes a line on the error stream. -/
def mention (text : String) (s : State) : State :=
  s.write 2 (Text.Utf8.encode (text ++ "\n").toList)

def withStatus (status : Nat) (s : State) : State := { s with status }

/-- The number of the line in messages. -/
def lineNumber (s : State) : Nat := s.line - (s.firstLine - 1)

/-- Says what a command finds wrong, on the error stream. -/
def report (text : String) (status : Nat) (s : State) : State :=
  (s.mention (s.name ++ ": " ++ toString s.lineNumber ++ ": " ++ text)).withStatus status

/-- Says what is wrong with the script. -/
def complain (text : String) (status : Nat) (s : State) : State :=
  s.report (s.heading ++ text) status

/-- Gives a name a value. One name says which option is taken next. -/
def assign (name value : String) (s : State) : State :=
  { s with
    bindings := (name, value) :: s.bindings.filter fun v => v.1 != name
    progress := if name == "OPTIND" then ⟨max 1 ((natural? value).getD 1), none⟩ else s.progress }

def unset (name : String) (s : State) : State :=
  { s with
    bindings := s.bindings.filter fun v => v.1 != name
    exported := s.exported.filter (· != name) }

/-- Gives a name the value that it had, or none. -/
def reset (name : String) (value : Option String) (s : State) : State :=
  match value with
  | some v => s.assign name v
  | none => { s with bindings := s.bindings.filter fun v => v.1 != name }

/-- What other programs get. -/
def environment (s : State) : List (String × String) :=
  s.bindings.filter fun v => s.exported.contains v.1

/-- The characters between which fields are split. -/
def separators (s : State) : List Char :=
  match s.bindings.lookup "IFS" with
  | some cs => cs.toList
  | none => [' ', '\t', '\n']

/-- The value of a parameter by name; `none` when it is not set. -/
def parameter? (s : State) (name : String) : Option String :=
  match name with
  | "?" => some (toString s.status)
  | "#" => some (toString s.args.length)
  | "$" => some (toString s.number)
  | "!" => if s.jobs.isEmpty then none else some (toString (s.number + s.jobs.length))
  | "-" => some (String.ofList (optionLetters.filter s.options.contains))
  | "0" => some s.name
  | "@" => if s.args.isEmpty then none else some (" ".intercalate s.args)
  | "*" =>
    if s.args.isEmpty then none
    else some (String.intercalate (String.ofList (s.separators.take 1)) s.args)
  | "LINENO" => some (toString s.lineNumber)
  | _ =>
    match name.toNat? with
    | some n => s.args[n - 1]?
    | none => s.bindings.lookup name

def has (s : State) (option : Char) : Bool := s.options.contains option

/-- How many characters a text may have: the sixteenth part of the memory, and no more than are
ever needed. -/
def longestText (s : State) : Nat :=
  min 0x400000 ((s.memoryLimit.map (· / 16)).getD 0x400000)

/-- Whether there is an action for a signal. -/
def minds (s : State) (signal : Nat) : Bool :=
  !Signal.isInexorable signal && !s.deaf.contains signal
    && ((s.traps.lookup signal).map fun action => !action.isEmpty).getD false

/-- Whether there is an action for a signal or the exit. -/
def hasTraps (s : State) : Bool := s.traps.any fun t => !t.2.isEmpty

/-- The bytes written to a stream, in their order. -/
def bytesOn (stream : Stream) (ws : List Write) : List UInt8 :=
  ((ws.reverse.filter fun w => w.stream == stream).mergeSort
    fun v w => v.time ≤ w.time).flatMap Write.bytes

/-- What was written up to a time. -/
def cutAt (time : Nat) (s : State) : State :=
  { s with clock := min s.clock time, written := s.written.filter fun w => w.time ≤ time }

/-- The place in the list of the job of that number. -/
def jobPlace? (s : State) (n : Nat) : Option Nat :=
  if s.number < n && n - s.number ≤ s.jobs.length then some (s.jobs.length - (n - s.number))
  else none

/-- A signal reaches a job. If it ends it, what it would have written later is not written. -/
def strike (m : Message) (s : State) : State :=
  match (s.jobPlace? m.target).bind fun i => (s.jobs[i]?).map fun j => (i, j) with
  | some (i, job) =>
    if job.runsAt m.time && !job.ignored.contains m.signal && Signal.effect m.signal == .death then
      { s with
        jobs := s.jobs.set i { job with
          finish := some m.time
          status := 128 + m.signal
          signal := some m.signal }
        written := s.written.filter fun w => w.owner != job.serial || w.time ≤ m.time }
    else s
  | none => s

/-- Takes a signal to where it is sent, or leaves it to those who know the way. -/
def post (s : State) (m : Message) : State :=
  if m.target == s.number && !s.isCopy then
    let (before, behind) := s.alarms.span fun a => a.1 ≤ m.time
    { s with alarms := before ++ (m.time, m.signal) :: behind }
  else
    let struck := s.strike m
    if (s.jobPlace? m.target).isSome && !s.isCopy then struck
    else { struck with sent := s.sent ++ [m] }

/-- A copy to run a part of the script in. -/
def fork (s : State) : State :=
  { s with
    written := []
    traps := s.traps.filter fun t => t.2.isEmpty
    isCopy := true
    sent := []
    alarms := [] }

/-- The process of another program, which gets the values of `bindings`. It takes the place of the
process of the script, or is one of its own. -/
def spawned (inPlace : Bool) (bindings : List (String × String)) (s : State) : State :=
  { s.fork with
    heading := ""
    progress := {}
    bindings
    exported := bindings.map Prod.fst
    fixed := []
    procedures := []
    aliases := []
    calls := 0
    traps := []
    deaf := s.deaf ++ ((s.traps.filter fun t => t.2.isEmpty).map Prod.fst)
    locals := none
    options := []
    loops := 0
    line := 1
    firstLine := 1
    number := if inPlace then s.number else s.number + 1000
    ancestors := if inPlace then s.ancestors else s.number :: s.ancestors
    jobs := []
    isCopy := false }

/-- Goes on after the copy `child` has finished. -/
def join (s child : State) : State :=
  child.sent.foldl post { s with
    files := child.files
    written := child.written ++ s.written
    clock := child.clock
    steps := child.steps
    effort := child.effort
    serial := child.serial
    input := child.input
    status := child.status }

end State
end HeapPressure.Shell
