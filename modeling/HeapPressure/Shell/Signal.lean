/-!
Signals as scripts name them, and what they do to a process that does not expect them.
-/
namespace HeapPressure.Shell.Signal

def names : List String :=
  ["EXIT", "HUP", "INT", "QUIT", "ILL", "TRAP", "ABRT", "BUS", "FPE", "KILL", "USR1", "SEGV",
    "USR2", "PIPE", "ALRM", "TERM", "16", "CHLD", "CONT", "STOP", "TSTP", "TTIN", "TTOU",
    "URG", "XCPU", "XFSZ", "VTALRM", "PROF", "WINCH", "IO", "PWR", "SYS"]

/-- The last signal there is, beyond those with names. -/
def last : Nat := 64

/-- Signals without a name of their own are named by their numbers; those from 34 on are counted
from the nearer end. -/
def nameOf (n : Nat) : String :=
  match names[n]? with
  | some name => name
  | none =>
    if n < 34 then toString n
    else if n = 34 then "RTMIN"
    else if n < 50 then "RTMIN+" ++ toString (n - 34)
    else if n < last then "RTMAX-" ++ toString (last - n)
    else "RTMAX"

/-- A signal by number or by name. -/
def ofText? (s : String) : Option Nat :=
  match s.toNat? with
  | some n => if n ≤ last then some n else none
  | none => (List.range (last + 1)).find? fun n => nameOf n == s.toUpper

def kill : Nat := 9

/-- What a process gets when a child of it ends. -/
def childEnded : Nat := 17

def goOn : Nat := 18

/-- What a process gets when it has used up its time. -/
def timeUsedUp : Nat := 24

inductive Effect where
  | nothing
  | stop
  | death
deriving DecidableEq

def effect (n : Nat) : Effect :=
  if [0, 17, 18, 23, 28].contains n then .nothing
  else if [19, 20, 21, 22].contains n then .stop
  else .death

/-- What is said of a process that a signal has ended. -/
def descriptions : List String :=
  ["", "Hangup", "Interrupt", "Quit", "Illegal instruction", "Trace/breakpoint trap", "Aborted",
    "Bus error", "Floating point exception", "Killed", "User defined signal 1",
    "Segmentation fault", "User defined signal 2", "Broken pipe", "Alarm clock", "Terminated",
    "Stack fault", "Child exited", "Continued", "Stopped (signal)", "Stopped",
    "Stopped (tty input)", "Stopped (tty output)", "Urgent I/O condition",
    "CPU time limit exceeded", "File size limit exceeded", "Virtual timer expired",
    "Profiling timer expired", "Window changed", "I/O possible", "Power failure",
    "Bad system call"]

/-- The words for a signal; those without a name of their own are counted. -/
def description (n : Nat) : String :=
  match descriptions[n]? with
  | some d => d
  | none => "Real-time signal " ++ toString (n - 34)

/-- Signals that are not talked about: they come from outside or from a reader that left. -/
def isQuiet (n : Nat) : Bool := n == 2 || n == 13

/-- Signals that no process can catch or ignore. -/
def isInexorable (n : Nat) : Bool := n == 9 || n == 19

end HeapPressure.Shell.Signal
