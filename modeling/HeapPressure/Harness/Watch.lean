import HeapPressure.Harness.Error
import HeapPressure.Report.Usage

/-!
Watching a child until it is reaped. The system is asked again and again whether the child has
ended; once the clock shows more than the timeout its process group is killed and the system is
asked to wait for the end. The answers of the system and the readings of the clock are given;
`none` means that they ran out before the watch was over.
-/
namespace HeapPressure.Harness

/-- The pause between two questions. -/
def pollMillis : Nat := 50

/-- What the system says when asked for the child. -/
inductive Answer where
  | running
  | interrupted
  | reaped (status : Int32) (counts : ResourceCounts)
  | failed (e : SystemError)
deriving DecidableEq

structure Reaped where
  status : Int32
  usage : Usage
deriving DecidableEq

/-- What the watch does. -/
inductive Act where
  | asked (blocking : Bool) (answer : Answer)
  | readClock (millis : Nat)
  | killedGroup
  | slept
  | joinedOutput
deriving DecidableEq

structure Watch where
  /-- The end of the child and whether it was due to the timeout. -/
  result : Except SystemError (Reaped × Bool)
  acts : List Act

namespace Watch

def before (acts : List Act) (w : Watch) : Watch := { w with acts := acts ++ w.acts }

/-- Asks for the child, waiting for its end when `blocking`. An interrupted question is asked
again. -/
def run (timeoutMillis : Nat) (blocking : Bool) : List Answer → List Nat → Option Watch
  | [], _ => none
  | .interrupted :: answers, clock =>
    (run timeoutMillis blocking answers clock).map (before [.asked blocking .interrupted])
  | .reaped status counts :: _, _ =>
    some ⟨.ok (⟨status, .ofCounts counts⟩, blocking), [.asked blocking (.reaped status counts)]⟩
  | .failed e :: _, _ => some ⟨.error e, [.asked blocking (.failed e)]⟩
  | .running :: answers, clock =>
    if blocking then (run timeoutMillis false answers clock).map (before [.asked true .running])
    else
      match clock with
      | [] => none
      | now :: clock =>
        if now > timeoutMillis then
          (run timeoutMillis true answers clock).map
            (before [.asked false .running, .readClock now, .killedGroup])
        else
          (run timeoutMillis false answers clock).map
            (before [.asked false .running, .readClock now, .slept])

/-- Whether the timeout was noticed. -/
def noticedTimeout (w : Watch) : Bool := w.acts.contains .killedGroup

end Watch

/-- Watches a child from its start. -/
def watch (timeoutMillis : Nat) (answers : List Answer) (clock : List Nat) : Option Watch :=
  Watch.run timeoutMillis false answers clock

end HeapPressure.Harness
