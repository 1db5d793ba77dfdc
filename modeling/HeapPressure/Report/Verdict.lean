/-!
How a process ended, and what that says about its memory limit.
-/
namespace HeapPressure

inductive Verdict where
  | ok
  | memoryLimitExceeded
  | timeLimitExceeded
  | runtimeError
deriving DecidableEq

namespace Verdict

def all : List Verdict := [.ok, .memoryLimitExceeded, .timeLimitExceeded, .runtimeError]

def name : Verdict → String
  | .ok => "OK"
  | .memoryLimitExceeded => "MEMORY_LIMIT_EXCEEDED"
  | .timeLimitExceeded => "TIME_LIMIT_EXCEEDED"
  | .runtimeError => "RUNTIME_ERROR"

def names : List String := all.map name

def ofName? (s : String) : Option Verdict := all.find? fun v => v.name == s

/-- A process that runs out of heap ends by itself, or the limit ends it. -/
def isAccepted : Verdict → Bool
  | .ok => true
  | .memoryLimitExceeded => true
  | _ => false

theorem ofName?_name (v : Verdict) : ofName? v.name = some v := by
  cases v <;> decide

theorem name_injective {v w : Verdict} (h : v.name = w.name) : v = w := by
  have := congrArg ofName? h
  simpa [ofName?_name] using this

end Verdict

/-- The exit code or the signal that ended a process. -/
structure ExitOutcome where
  code : Option Int32 := none
  signal : Option Int32 := none
deriving DecidableEq

/-- Splits a wait status. The low seven bits hold the signal, or 0 after an exit, whose code is
in the next byte; 127 there marks a process that has not ended. -/
def ExitOutcome.ofStatus (raw : Int32) : ExitOutcome :=
  let bits := raw.toUInt32.toNat
  let low := bits % 128
  if low = 0 then { code := some (Int32.ofNat (bits / 256 % 256)) }
  else if low = 127 then {}
  else { signal := some (Int32.ofNat low) }

/-- Signals with which the system, or the process itself, answers a failed allocation. -/
def isMemorySignal (signal : Int32) : Bool := signal == 6 || signal == 9

def classify (outcome : ExitOutcome) (timedOut : Bool) : Verdict :=
  if timedOut then .timeLimitExceeded
  else
    match outcome.signal, outcome.code with
    | some s, _ => if isMemorySignal s then .memoryLimitExceeded else .runtimeError
    | none, some c => if c == 0 then .ok else .runtimeError
    | none, none => .runtimeError

end HeapPressure
