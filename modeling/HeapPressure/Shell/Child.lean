import HeapPressure.Shell.Arrival

/-!
Copies of a process and other programs that it starts, and how it goes on after them.
-/
namespace HeapPressure.Shell

/-- A copy that writes to another command of the script. -/
def intoPipe (s : State) : State :=
  { s.fork with streams := (1, .pipe) :: s.streams.filter fun t => t.1 != 1 }

/-- Takes out what was written to another command. -/
def splitPipe (s : State) : List UInt8 × State :=
  (State.bytesOn .pipe s.written, { s with written := s.written.filter fun w => w.stream != .pipe })

/-- Whether a command leaves nothing to go on with. -/
def isFinal : Flow → Bool
  | .died _ => true
  | .killed _ => true
  | .stuck => true
  | _ => false

/-- Goes on after a child that was waited for; when the child took the place of the process, its
death is that of the process. -/
def ended (replaced : Bool) (s : State) (r : Result) : Result :=
  let joined := s.join r.2
  let after :=
    if !replaced && !s.isCopy && s.minds Signal.childEnded then
      joined.post ⟨s.number, Signal.childEnded, joined.clock⟩
    else joined
  let dead (n : Nat) : Result :=
    if replaced then (.died n, after) else (.next, (mourn n after).withStatus (128 + n))
  match r.1 with
  | .stuck => (.stuck, after)
  | .killed n => dead n
  | .died n => dead n
  | _ => (.next, after)

/-- The copy that runs in the background. The process of the script is the first to go on. -/
def aside (s : State) : State :=
  { s.fork with clock := s.clock + 1, input := [], endlessInput := false }

/-- Starts a background process: what it writes and when it ends is known at once. Signals it
sends count from when they are sent. -/
def started (s : State) (r : Result) : State :=
  let (f, child) := r
  let signal : Option Nat :=
    match f with
    | .died n => some n
    | _ => none
  let finish := if f == .stuck then none else some child.clock
  let serial := child.serial + 1
  let job : Job := {
    finish
    status := (signal.map (128 + ·)).getD child.status
    signal
    serial
    ignored := child.deaf ++ (child.traps.filter fun t => t.2.isEmpty).map Prod.fst }
  let own (w : Write) : Write := if w.owner = 0 then { w with owner := serial } else w
  let after := child.sent.foldl State.post { s with
    files := child.files
    steps := if f == .stuck then s.steps else child.steps
    effort := child.effort
    written := child.written.map own ++ s.written
    serial
    jobs := job :: s.jobs
    status := 0 }
  match finish with
  | some time =>
    if s.isCopy then after else after.post ⟨s.number, Signal.childEnded, time⟩
  | none => after

end HeapPressure.Shell
