import HeapPressure.Harness.Host
import HeapPressure.Machine.Program

/-!
A machine as the host of the harness. A process takes at least a millisecond, so it is never
found ended by a question at its start; questions come at regular times, and the clock is read a
millisecond after each.
-/
namespace HeapPressure.Machine

open Harness (Launch Child Answer SystemError)

/-- The use of resources that is reported of every process. -/
def standardCounts : ResourceCounts := ⟨1024, 0, 1000, 0, 1000⟩

/-- The least number of pauses that take that long. -/
def pausesFor (millis : Nat) : Nat := (millis + Harness.pollMillis - 1) / Harness.pollMillis

/-- Readings of the clock after the first questions. -/
def readings (n : Nat) : List Nat := (List.range n).map fun k => k * Harness.pollMillis + 1

/-- Questions that no watch gets beyond. -/
def maxQuestions : Nat := 1000000

namespace Course

/-- What is left when the process is reaped after some pauses. -/
def childAfter (pauses : Nat) (questions : Nat) (status : Int32) (c : Course) : Child :=
  let time := pauses * Harness.pollMillis
  let written := c.written.filter fun w => w.time ≤ time
  { answers := List.replicate questions .running ++ [.reaped status standardCounts]
    clock := readings questions
    stdout := Shell.State.bytesOn .output written
    stderr := Shell.State.bytesOn .error written
    wallTimeMillis := time + 1 }

/-- The process as the harness sees it: it ends by itself, or the timeout is over before and its
group is killed, or neither comes in sight. -/
def child (timeoutMillis : Nat) (c : Course) : Child :=
  let overdue := pausesFor timeoutMillis
  let killed :=
    if overdue ≤ maxQuestions then
      c.childAfter overdue (overdue + 1) (signalled Shell.Signal.kill)
    else
      { answers := [], clock := [], stdout := [], stderr := [], wallTimeMillis := 0 }
  match c.ending with
  | none => killed
  | some (time, status) =>
    let pauses := pausesFor (time + 1)
    if pauses ≤ overdue && pauses ≤ maxQuestions then c.childAfter pauses pauses status else killed

end Course

/-- How long an argument may be. -/
def maxArgumentBytes : Nat := 131071

/-- Starts a program, unless a text holds what no text may hold, there is no such program or an
argument is too long. -/
def start (m : Machine) (l : Launch) : Except SystemError Child :=
  if Files.hasNul l.program || l.args.any Files.hasNul then .error .nulInData
  else
    match m.files.findProgram l.program with
    | .error e => .error e
    | .ok program =>
      if l.args.any fun a => a.utf8ByteSize > maxArgumentBytes then .error .argumentTooLong
      else .ok ((m.course program l).child l.timeoutMillis)

def host (m : Machine) : Harness.Host where
  readFile := m.files.read
  pathExists := m.files.pathExists
  programDirectory := .ok m.programDirectory
  start := m.start

private def home : Place := ["heap-pressure", "opt"]

/-- A machine with the usual programs, and the fixture beside the harness. -/
def standard : Machine where
  files := (Files.standard.add home .directory).add (Settings.fixtureName :: home)
    (.program Settings.fixtureName)
  programDirectory := "/opt/heap-pressure"

end HeapPressure.Machine
